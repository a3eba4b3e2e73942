import Muduo.Lib.Faults
import Muduo.Lib.Signed
import Muduo.Net.Buffer

/-!
ZlibOutputStream of ZlibStream.h. The input that deflate has not taken yet is held by next_in
and avail_in, which stay from one call to the next. Output goes to the writable bytes of a
Buffer, of which deflate is told how many there are, and says how many are left.

deflate is a stream transducer that nothing is known of: each call of it takes some of the input
it is offered, stores some bytes in the space it is offered, and returns a code. The replies are
part of the calls of the stream, cut to what is offered. A write of a string and finish call
deflate until a condition of the loop ends it; a call for which there are too few replies has
not returned. The Buffer that is read is not the one that is written, and a pointer that is left
in it goes on reading what was there.
-/
namespace Muduo
open Lib Lib.Signed
namespace ZlibOutputStream

inductive ZError where
  | Z_OK | Z_STREAM_END | Z_NEED_DICT | Z_ERRNO | Z_STREAM_ERROR | Z_DATA_ERROR | Z_MEM_ERROR
  | Z_BUF_ERROR | Z_VERSION_ERROR
  deriving DecidableEq

open ZError

structure Reply where
  consumed : Nat
  produced : List UInt8
  error : ZError
  deriving DecidableEq

structure Stream where
  output_ : Buffer
  /-- Null, or the bytes from the pointer to the end of the input. -/
  next_in : Option (List UInt8)
  avail_in : Nat
  zerror_ : ZError
  bufferSize_ : Nat
  fed : List UInt8
  produced : List UInt8
  claimed : List UInt8
  drained : List UInt8
  failed : Option String

/-- The constructor, with what deflateInit returns. -/
def new (output : Buffer) (zerror : ZError) : Stream :=
  ⟨output, none, 0, zerror, 1024, [], [], [], [], none⟩

def uInt (n : Nat) : Nat := toUnsigned 32 (toSigned int n)

def deflate (s : Stream) (avail_out : Nat) (r : Reply) : Stream × List UInt8 :=
  let n := min r.consumed s.avail_in
  let written := r.produced.take avail_out
  ({ s with
      next_in := s.next_in.map (List.drop n), avail_in := s.avail_in - n,
      fed := s.fed ++ (s.next_in.getD []).take n, produced := s.produced ++ written }, written)

/-- bufferSize_ is doubled, up to 65536, when the space was used up. -/
def grownSize (bufferSize_ writable : Nat) : Nat :=
  if writable = 0 ∧ bufferSize_ < 65536 then bufferSize_ * 2 else bufferSize_

def compress (s : Stream) (r : Reply) : Checked Stream := do
  let out ← s.output_.ensureWritableBytes s.bufferSize_
  let offered := uInt out.writableBytes
  let (s, written) := deflate s offered r
  let avail_out := offered - written.length
  let out := { out with buffer_ := storeAt out.buffer_ out.beginWrite written }
  let out ← out.hasWritten (out.writableBytes - avail_out)
  pure { s with
    output_ := out, bufferSize_ := grownSize s.bufferSize_ out.writableBytes, zerror_ := r.error }

def loop (go : Nat → ZError → Bool) : Stream → List Reply → Checked (Option Stream)
  | s, [] => pure (if go s.avail_in s.zerror_ then none else some s)
  | s, r :: replies =>
    if go s.avail_in s.zerror_ then do
      let t ← compress s r
      loop go t replies
    else pure (some s)

def writing (avail_in : Nat) (zerror : ZError) : Bool := decide (0 < avail_in ∧ zerror = Z_OK)

def finishing (_ : Nat) (zerror : ZError) : Bool := decide (zerror = Z_OK)

structure StringPiece where
  data : Option (List UInt8)
  fits : (data.getD []).length < 2 ^ 31

def StringPiece.bytes (buf : StringPiece) : List UInt8 := buf.data.getD []

def writePiece (s : Stream) (buf : StringPiece) (replies : List Reply) :
    Checked (Option (Stream × Bool)) :=
  if s.zerror_ ≠ Z_OK then pure (some (s, false))
  else do
    assertThat (s.next_in = none ∧ s.avail_in = 0)
      "zstream_.next_in == NULL && zstream_.avail_in == 0"
    match ← loop writing { s with next_in := buf.data, avail_in := buf.bytes.length } replies with
    | none => pure none
    | some t =>
      if t.avail_in = 0 then do
        assertThat (t.next_in = buf.data.map fun _ => []) "zstream_.next_in == buf.end()"
        pure (some ({ t with next_in := none }, decide (t.zerror_ = Z_OK)))
      else pure (some (t, decide (t.zerror_ = Z_OK)))

def offer (s : Stream) (r : Reply) : Checked Stream :=
  if writing s.avail_in s.zerror_ then compress s r else pure s

/-- write(Buffer*), which also changes its argument. -/
def writeBuffer (s : Stream) (input : Buffer) (r : Reply) : Checked (Stream × Buffer × Bool) :=
  if s.zerror_ ≠ Z_OK then pure (s, input, false)
  else do
    let s ← offer
      { s with next_in := some input.readable, avail_in := uInt input.readableBytes } r
    let input ← input.retrieve (input.readableBytes - s.avail_in)
    pure (s, input, decide (s.zerror_ = Z_OK))

def finish (s : Stream) (replies : List Reply) (ended : ZError) : Checked (Option (Stream × Bool)) :=
  if s.zerror_ ≠ Z_OK then pure (some (s, false))
  else do
    match ← loop finishing s replies with
    | none => pure none
    | some t => pure (some ({ t with zerror_ := Z_STREAM_END }, decide (ended = Z_OK)))

structure Input where
  buffer : Buffer
  valid : buffer.Valid

inductive Call where
  | writePiece (buf : StringPiece) (replies : List Reply)
  | writeBuffer (input : Input) (r : Reply)
  | finish (replies : List Reply) (ended : ZError)
  /-- The owner of output_ reads some of it. -/
  | drain (len : Nat)

/-- A call and what it says it consumed: the whole string if it returns true, and the bytes that
    are gone from the Buffer. -/
def call (s : Stream) : Call → Checked (Option Stream)
  | .writePiece buf replies => do
    match ← writePiece s buf replies with
    | some (t, true) => pure (some { t with claimed := t.claimed ++ buf.bytes })
    | some (t, false) => pure (some t)
    | none => pure none
  | .writeBuffer input r => do
    let (t, rest, _) ← writeBuffer s input.buffer r
    let gone := input.buffer.readableBytes - rest.readableBytes
    pure (some { t with claimed := t.claimed ++ input.buffer.readable.take gone })
  | .finish replies ended => do
    match ← finish s replies ended with
    | some (t, _) => pure (some t)
    | none => pure none
  | .drain len =>
    if len ≤ s.output_.readableBytes then do
      let out ← s.output_.retrieve len
      pure (some { s with output_ := out, drained := s.drained ++ s.output_.readable.take len })
    else pure none

def faults : Faults Stream := ⟨Stream.failed, fun s e => { s with failed := some e }⟩

/-- A call that has not returned is not a step. -/
def machine : Machine Stream Call := faults.machine fun s l => returned (call s l)

/-! ### One call of deflate -/

def Stream.input (s : Stream) : List UInt8 := s.next_in.getD []

def space (s : Stream) : Nat :=
  match s.output_.ensureWritableBytes s.bufferSize_ with
  | .ok out => out.writableBytes
  | .error _ => 0

/-- What is added: the bytes that deflate took, those that were said to be consumed, and what it
    stored, where each space that it was offered fits the type of avail_out; otherwise output_
    gains more. -/
structure Added (s t : Stream) (taken said : List UInt8) (fits : Prop) : Prop where
  fed : t.fed = s.fed ++ taken
  claimed : t.claimed = s.claimed ++ said
  drained : t.drained = s.drained
  failed : t.failed = s.failed
  exact : fits → ∃ more, t.output_.readable = s.output_.readable ++ more ∧
    t.produced = s.produced ++ more
  excess : ¬fits → s.output_.readable.length + t.produced.length <
    t.output_.readable.length + s.produced.length

structure Moved (s t : Stream) (n : Nat) (fits : Prop) : Prop
    extends Added s t (s.input.take n) [] fits where
  next_in : t.next_in = s.next_in.map (List.drop n)
  avail_in : t.avail_in + n = s.avail_in
  valid : t.output_.Valid

theorem uInt_eq (n : Nat) : uInt n = n % 2 ^ 32 := by
  unfold uInt toUnsigned toSigned
  have same : ((n : Int).bmod (2 ^ 32)) % 2 ^ 32 = (n : Int) % 2 ^ 32 := Int.bmod_emod
  rw [same]
  omega

section
variable {s t u : Stream} {n m : Nat} {fits more : Prop}

theorem Moved.refl (valid : s.output_.Valid) : Moved s s 0 True := by
  refine ⟨⟨?_, ?_, rfl, rfl, ?_, ?_⟩, ?_, Nat.add_zero _, valid⟩
  · simp
  · simp
  · intro _
    exact ⟨[], by simp⟩
  · intro no
    exact absurd trivial no
  · cases s.next_in <;> rfl

theorem Moved.input (moved : Moved s t n fits) : t.input = s.input.drop n := by
  unfold Stream.input
  rw [moved.next_in]
  cases s.next_in with
  | none => simp
  | some rest => rfl

theorem Added.gains {taken said : List UInt8} (added : Added s t taken said fits) :
    s.output_.readable.length + t.produced.length ≤
      t.output_.readable.length + s.produced.length := by
  by_cases fit : fits
  · obtain ⟨w, readable, produced⟩ := added.exact fit
    simp only [readable, produced, List.length_append]
    omega
  · exact Nat.le_of_lt (added.excess fit)

theorem Moved.trans (first : Moved s t n fits) (second : Moved t u m more) :
    Moved s u (n + m) (fits ∧ more) := by
  refine ⟨⟨?_, ?_, second.drained.trans first.drained, second.failed.trans first.failed, ?_, ?_⟩,
    ?_, ?_, second.valid⟩
  · rw [second.fed, first.fed, first.input, List.append_assoc, ← List.take_add]
  · rw [second.claimed, first.claimed, List.append_nil]
  · intro ⟨fit, fit'⟩
    obtain ⟨w, readable, produced⟩ := first.exact fit
    obtain ⟨w', readable', produced'⟩ := second.exact fit'
    exact ⟨w ++ w', by simp [readable', readable], by simp [produced', produced]⟩
  · intro no
    have a := first.gains
    have b := second.gains
    by_cases fit : fits
    · have strict := second.excess (fun fit' => no ⟨fit, fit'⟩)
      omega
    · have strict := first.excess fit
      omega
  · rw [second.next_in, first.next_in, Option.map_map]
    congr 1
    funext rest
    simp
  · have a := first.avail_in
    have b := second.avail_in
    omega

theorem Moved.of_iff (moved : Moved s t n fits) (same : fits ↔ more) : Moved s t n more := by
  have eq : fits = more := propext same
  exact eq ▸ moved

def free (b : Buffer) : Nat := b.writableBytes + b.prependableBytes

theorem ensureWritableBytes_free {b b' : Buffer} {len : Nat}
    (ran : b.ensureWritableBytes len = .ok b') :
    free b' ≤ max (free b) (2 * len + Buffer.kCheapPrepend) := by
  rcases Buffer.ensureWritableBytes_made ran with rfl | grew
  · exact Nat.le_max_left _ _
  · unfold Buffer.makeSpace at grew
    split at grew
    · rename_i short
      cases grew
      simp only [free, Buffer.writableBytes, Buffer.prependableBytes, Buffer.length_resize] at short ⊢
      omega
    · obtain ⟨_, beyond, grew⟩ := bind_eq_ok.mp grew
      obtain ⟨-, -, grew⟩ := bind_eq_ok.mp grew
      cases grew
      have beyond := assertThat_eq_ok.mp beyond
      simp only [free, Buffer.writableBytes, Buffer.prependableBytes, Buffer.readableBytes,
        length_copyForward]
      omega

theorem hasWritten_moved {out : Buffer} (valid : out.Valid) {written : List UInt8}
    (room : written.length ≤ uInt out.writableBytes) :
    ∃ out', Buffer.hasWritten { out with buffer_ := storeAt out.buffer_ out.beginWrite written }
        (out.writableBytes - (uInt out.writableBytes - written.length)) = .ok out' ∧
      out'.Valid ∧ free out' ≤ free out ∧
      (out.writableBytes < 2 ^ 32 → out'.readable = out.readable ++ written) ∧
      (¬out.writableBytes < 2 ^ 32 →
        out.readable.length + written.length < out'.readable.length) := by
  have bounded := valid.bounded
  have ordered := valid.ordered
  have length := Buffer.readable_length valid
  rw [uInt_eq] at room ⊢
  have size : out.writableBytes = out.buffer_.length - out.writerIndex_ := rfl
  have readable : out.readableBytes = out.writerIndex_ - out.readerIndex_ := rfl
  generalize gained : out.writableBytes - (out.writableBytes % 2 ^ 32 - written.length) = len
  have announced : len ≤ out.writableBytes := by omega
  have valid' : Buffer.Valid ⟨storeAt out.buffer_ out.beginWrite written, out.readerIndex_,
      out.writerIndex_ + len⟩ := by
    refine ⟨by simpa using valid.cheap, ?_, ?_⟩
    · dsimp only
      omega
    · dsimp only
      rw [length_storeAt]
      omega
  refine ⟨_, ?_, valid', ?_, ?_, ?_⟩
  · unfold Buffer.hasWritten
    rw [assertThat_of_true (by simpa [Buffer.writableBytes] using announced), ok_bind]
    rfl
  · simp only [free, Buffer.writableBytes, Buffer.prependableBytes, length_storeAt]
    omega
  · intro fits
    have same : len = written.length := by omega
    have inside : out.writerIndex_ + written.length ≤ out.buffer_.length := by omega
    subst same
    exact window_storeAt_back ordered inside
  · intro large
    rw [Buffer.readable_length valid', length]
    dsimp only [Buffer.readableBytes]
    omega

/-- The writable and the prependable bytes of output_ fit a uInt together. -/
def Roomy (s : Stream) : Prop := free s.output_ < 2 ^ 32

instance (s : Stream) : Decidable (Roomy s) := inferInstanceAs (Decidable (_ < _))

structure Sized (s : Stream) : Prop where
  valid : s.output_.Valid
  size : s.bufferSize_ < 131072

theorem compress_spec (sized : Sized s) (r : Reply) : ∃ t, compress s r = .ok t ∧
    Moved s t (min r.consumed s.avail_in) (space s < 2 ^ 32) ∧ t.zerror_ = r.error ∧ Sized t ∧
      (Roomy s → space s < 2 ^ 32 ∧ Roomy t) := by
  obtain ⟨out, room, valid', same, -⟩ := Buffer.ensureWritableBytes_spec sized.valid s.bufferSize_
  have offered : space s = out.writableBytes := by simp only [space, room]
  have short : (r.produced.take (uInt out.writableBytes)).length ≤ uInt out.writableBytes := by
    simp only [List.length_take]
    omega
  obtain ⟨out', wrote, valid'', less, exact_, excess⟩ := hasWritten_moved valid' short
  have writable : ({ out with
      buffer_ := storeAt out.buffer_ out.beginWrite (r.produced.take (uInt out.writableBytes)) } :
      Buffer).writableBytes = out.writableBytes := by
    simp [Buffer.writableBytes]
  have ran : compress s r = .ok { (deflate s (uInt out.writableBytes) r).1 with
      output_ := out', bufferSize_ := grownSize s.bufferSize_ out'.writableBytes,
      zerror_ := r.error } := by
    unfold compress
    rw [room, ok_bind]
    dsimp only [deflate]
    rw [writable, wrote, ok_bind]
    rfl
  refine ⟨_, ran, ⟨⟨rfl, (List.append_nil _).symm, rfl, rfl, ?_, ?_⟩, rfl, ?_, valid''⟩, rfl,
    ⟨valid'', ?_⟩, ?_⟩
  · intro fits
    rw [offered] at fits
    exact ⟨_, by rw [exact_ fits, same], rfl⟩
  · intro no
    rw [offered] at no
    have more := excess no
    rw [same] at more
    dsimp only [deflate]
    rw [List.length_append]
    omega
  · dsimp only [deflate]
    omega
  · have size := sized.size
    dsimp only [grownSize]
    split <;> omega
  · intro roomy
    have bound := ensureWritableBytes_free room
    have size := sized.size
    rw [offered]
    simp only [Roomy] at roomy ⊢
    have part : out.writableBytes ≤ free out := Nat.le_add_right _ _
    simp only [Buffer.kCheapPrepend] at bound
    omega

theorem offer_spec (sized : Sized s) (ok : s.zerror_ = Z_OK) (r : Reply) :
    ∃ t n, offer s r = .ok t ∧ Moved s t n (0 < s.avail_in → space s < 2 ^ 32) ∧ Sized t ∧
      (Roomy s → space s < 2 ^ 32) := by
  obtain ⟨t, ran, moved, -, sized', roomy⟩ := compress_spec sized r
  unfold offer
  by_cases some : 0 < s.avail_in
  · have on : writing s.avail_in s.zerror_ = true := by simp [writing, some, ok]
    refine ⟨t, _, by rw [if_pos on, ran], moved.of_iff ?_, sized', fun room => (roomy room).1⟩
    simp [some]
  · have off : ¬writing s.avail_in s.zerror_ = true := by simp [writing, some]
    refine ⟨s, 0, by rw [if_neg off, pure_eq_ok], (Moved.refl sized.valid).of_iff ?_, sized,
      fun room => (roomy room).1⟩
    simp [some]

end

/-! ### The loops -/

def total (replies : List Reply) : Nat := (replies.map Reply.consumed).sum

@[simp] theorem total_nil : total [] = 0 := rfl

@[simp] theorem total_cons (r : Reply) (replies : List Reply) :
    total (r :: replies) = r.consumed + total replies := by
  simp [total]

@[simp] theorem total_append (first second : List Reply) :
    total (first ++ second) = total first + total second := by
  simp [total]

theorem total_mono {first second : List Reply} (ahead : first <+: second) :
    total first ≤ total second := by
  obtain ⟨rest, rfl⟩ := ahead
  rw [total_append]
  omega

theorem total_eq_zero {replies : List Reply} :
    total replies = 0 ↔ ∀ r ∈ replies, r.consumed = 0 := by
  induction replies with
  | nil => simp
  | cons r replies ih => rw [total_cons, Nat.add_eq_zero_iff, ih, List.forall_mem_cons]

inductive Looped (go : Nat → ZError → Bool) : Stream → List Reply → Stream → Prop where
  | done {s : Stream} (stop : go s.avail_in s.zerror_ = false) : Looped go s [] s
  | next {s u t : Stream} {r : Reply} {replies : List Reply} (on : go s.avail_in s.zerror_ = true)
      (ran : compress s r = .ok u) (rest : Looped go u replies t) : Looped go s (r :: replies) t

section
variable {go : Nat → ZError → Bool} {s t : Stream} {used : List Reply}

theorem loop_looped (go : Nat → ZError → Bool) (sized : Sized s) (replies : List Reply) :
    ∃ result, loop go s replies = .ok result ∧
      ∀ t, result = some t → ∃ used unused, replies = used ++ unused ∧ Looped go s used t := by
  induction replies generalizing s with
  | nil =>
    refine ⟨_, rfl, ?_⟩
    intro t same
    split at same
    · cases same
    · next stop =>
      cases same
      exact ⟨[], [], rfl, .done (by simpa using stop)⟩
  | cons r replies ih =>
    by_cases on : go s.avail_in s.zerror_ = true
    · obtain ⟨u, ran, -, -, sized', -⟩ := compress_spec sized r
      obtain ⟨result, rest, spec⟩ := ih sized'
      refine ⟨result, by simp only [loop, on, if_true, ran, ok_bind, rest], ?_⟩
      intro t same
      obtain ⟨used, unused, rfl, looped⟩ := spec t same
      exact ⟨r :: used, unused, rfl, .next on ran looped⟩
    · refine ⟨some s, by simp only [loop, on]; rfl, ?_⟩
      intro t same
      cases same
      exact ⟨[], _, rfl, .done (by simpa using on)⟩

theorem Looped.stop (looped : Looped go s used t) : go t.avail_in t.zerror_ = false := by
  induction looped with
  | done stop => exact stop
  | next _ _ _ ih => exact ih

theorem Looped.on (looped : Looped go s used t) (some : used ≠ []) :
    go s.avail_in s.zerror_ = true := by
  cases looped with
  | done => exact absurd rfl some
  | next on => exact on

theorem Looped.moved (looped : Looped go s used t) (sized : Sized s) :
    ∃ fits, Moved s t (min (total used) s.avail_in) fits ∧ Sized t ∧ (Roomy s → fits) ∧
      (used ≠ [] → fits → space s < 2 ^ 32) := by
  induction looped with
  | done =>
    refine ⟨True, ?_, sized, fun _ => trivial, fun no => absurd rfl no⟩
    rw [total_nil, Nat.zero_min]
    exact Moved.refl sized.valid
  | @next s u t r replies on ran rest ih =>
    obtain ⟨u', ran', moved, -, sized', roomy⟩ := compress_spec sized r
    rw [ran] at ran'
    cases ran'
    obtain ⟨fits, later, sized'', roomy', -⟩ := ih sized'
    have both := moved.trans later
    have sum := moved.avail_in
    have taken : min r.consumed s.avail_in + min (total replies) u.avail_in =
        min (total (r :: replies)) s.avail_in := by
      rw [total_cons]
      omega
    rw [taken] at both
    exact ⟨_, both, sized'', fun room => ⟨(roomy room).1, roomy' (roomy room).2⟩,
      fun _ fit => fit.1⟩

theorem Looped.last (looped : Looped go s used t) (sized : Sized s)
    (needs : ∀ a e, go a e = true → e = Z_OK) :
    (used = [] ∧ t = s) ∨ ∃ before r, used = before ++ [r] ∧ (∀ q ∈ before, q.error = Z_OK) ∧
      t.zerror_ = r.error ∧ go (s.avail_in - total before) Z_OK = true := by
  induction looped with
  | done => exact Or.inl ⟨rfl, rfl⟩
  | @next s u t r replies on ran rest ih =>
    refine Or.inr ?_
    obtain ⟨u', ran', moved, error, sized', -⟩ := compress_spec sized r
    rw [ran] at ran'
    cases ran'
    rcases ih sized' with ⟨rfl, rfl⟩ | ⟨before, q, rfl, fine, last, went⟩
    · exact ⟨[], r, rfl, by simp, error, by rw [← needs _ _ on]; exact on⟩
    · have on' : r.error = Z_OK := error ▸ needs _ _ (rest.on (by simp))
      have sum := moved.avail_in
      refine ⟨r :: before, q, rfl, List.forall_mem_cons.mpr ⟨on', fine⟩, last, ?_⟩
      rw [show s.avail_in - total (r :: before) = u.avail_in - total before by
        rw [total_cons]; omega]
      exact went

end

end ZlibOutputStream
end Muduo
