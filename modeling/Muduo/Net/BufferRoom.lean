import Mathlib.Logic.Function.Basic
import Muduo.Lib.Machine
import Muduo.Net.BufferReadFd
import Muduo.Net.BufferShrink
import Muduo.Net.ProtobufCodecLiteEncode

/-!
The room in front of an empty Buffer. A run is any sequence of calls on a family of
Buffers; a call whose assertion fails does not return. Of the calls that can empty a
Buffer, retrieve and retrieveAll move the indices back to kCheapPrepend, and unwrite does
not: it leaves the room that an earlier prepend has left.
-/
namespace Muduo
open Lib
namespace BufferRoom
open Buffer (kCheapPrepend extrabufSize Readv)
variable {ι : Type} [DecidableEq ι] {data : List UInt8} {len : Nat}

/-- A call on one Buffer. hasWritten comes after the caller has stored the bytes at
    beginWrite(). -/
inductive Op where
  | append (data : List UInt8)
  | prepend (data : List UInt8)
  | retrieve (len : Nat)
  | retrieveAll
  | unwrite (len : Nat)
  | ensureWritableBytes (len : Nat)
  | hasWritten (data : List UInt8)
  | shrink (reserve : Nat)
  | readFd (extrabuf : List UInt8) (readv : Readv)

def Op.call (b : Buffer) : Op → Checked Buffer
  | .append data => b.append data
  | .prepend data => b.prepend data
  | .retrieve len => b.retrieve len
  | .retrieveAll => pure b.retrieveAll
  | .unwrite len => b.unwrite len
  | .ensureWritableBytes len => b.ensureWritableBytes len
  | .hasWritten data => b.writeThenHasWritten data
  | .shrink reserve => b.shrink reserve
  | .readFd extrabuf readv => do
    let reading ← b.readFd extrabuf readv
    pure reading.buffer

def Op.Possible (b : Buffer) : Op → Prop
  | .readFd extrabuf (.stored data) => extrabuf.length = extrabufSize ∧ data.length ≤ b.offered
  | _ => True

instance (b : Buffer) (op : Op) : Decidable (op.Possible b) := by
  unfold Op.Possible
  split
  · infer_instance
  · infer_instance

inductive Call (ι : Type) where
  | on (i : ι) (op : Op)
  | swap (i j : ι)

def step (s : ι → Buffer) : Call ι → Option (ι → Buffer)
  | .on i op =>
    if op.Possible (s i) then (op.call (s i)).toOption.map (Function.update s i) else none
  | .swap i j =>
    let r := (s i).swap (s j)
    some (Function.update (Function.update s i r.1) j r.2)

def machine : Machine (ι → Buffer) (Call ι) := ⟨step⟩

def Roomy (b : Buffer) : Prop := b.readableBytes = 0 → kCheapPrepend ≤ b.prependableBytes

/-- An unwrite of all that is readable finds the room in front of it. -/
def Op.LeavesRoom (b : Buffer) : Op → Prop
  | .unwrite len => len = b.readableBytes → kCheapPrepend ≤ b.prependableBytes
  | _ => True

instance (b : Buffer) (op : Op) : Decidable (op.LeavesRoom b) := by
  unfold Op.LeavesRoom
  split
  · infer_instance
  · infer_instance

def LeavesRoom (s : ι → Buffer) : Call ι → Prop
  | .on i op => op.LeavesRoom (s i)
  | .swap _ _ => True

instance (s : ι → Buffer) (call : Call ι) : Decidable (LeavesRoom s call) := by
  unfold LeavesRoom
  split
  · infer_instance
  · infer_instance

variable {b b' : Buffer} {op : Op}

structure Sound (b : Buffer) : Prop where
  valid : b.Valid
  roomy : Roomy b

theorem roomy_of_reader (far : kCheapPrepend ≤ b.readerIndex_) : Roomy b := fun _ => far

theorem sound_of_longer (sound : Sound b) (valid' : b'.Valid)
    (longer : b.readable.length ≤ b'.readable.length)
    (reader : b'.readerIndex_ = b.readerIndex_ ∨ b'.readerIndex_ = kCheapPrepend) : Sound b' := by
  refine ⟨valid', ?_⟩
  intro empty
  rw [← Buffer.readable_length valid'] at empty
  have before : b.readableBytes = 0 := by
    rw [← Buffer.readable_length sound.valid]
    omega
  rcases reader with same | moved
  · exact Nat.le_trans (sound.roomy before) (Nat.le_of_eq same.symm)
  · exact Nat.le_of_eq moved.symm

theorem sound_retrieveAll (valid : b.Valid) : Sound b.retrieveAll :=
  ⟨(Buffer.retrieveAll_spec valid).1, roomy_of_reader (Nat.le_refl _)⟩

theorem sound_retrieve (sound : Sound b) (ran : b.retrieve len = .ok b') :
    Sound b' := by
  obtain ⟨_, enough, rest⟩ := bind_eq_ok.mp ran
  have enough := assertThat_eq_ok.mp enough
  split at rest
  · rename_i part
    obtain ⟨valid', -⟩ := holds_of_ok (Buffer.retrieve_spec sound.valid enough) ran
    cases rest
    refine ⟨valid', ?_⟩
    intro empty
    simp only [Buffer.readableBytes] at part empty
    omega
  · cases rest
    exact sound_retrieveAll sound.valid

theorem sound_prepend (sound : Sound b) (ran : b.prepend data = .ok b') :
    Sound b' := by
  obtain ⟨room, left⟩ := Buffer.prepend_room ran
  obtain ⟨valid', content⟩ := holds_of_ok (Buffer.prepend_spec sound.valid room) ran
  refine ⟨valid', ?_⟩
  intro empty
  rw [← Buffer.readable_length valid', content, List.length_append] at empty
  have before : b.readableBytes = 0 := by
    rw [← Buffer.readable_length sound.valid]
    omega
  have roomy := sound.roomy before
  rw [left]
  omega

theorem unwrite_indices (ran : b.unwrite len = .ok b') :
    len ≤ b.readableBytes ∧ b'.prependableBytes = b.prependableBytes ∧
      b'.readableBytes = b.readableBytes - len := by
  obtain ⟨_, enough, rest⟩ := bind_eq_ok.mp ran
  cases rest
  refine ⟨assertThat_eq_ok.mp enough, rfl, ?_⟩
  simp only [Buffer.readableBytes]
  omega

theorem sound_unwrite (sound : Sound b)
    (allowed : len = b.readableBytes → kCheapPrepend ≤ b.prependableBytes)
    (ran : b.unwrite len = .ok b') : Sound b' := by
  obtain ⟨enough, room, left⟩ := unwrite_indices ran
  obtain ⟨valid', -⟩ := holds_of_ok (Buffer.unwrite_spec sound.valid enough) ran
  refine ⟨valid', ?_⟩
  intro empty
  rw [room]
  exact allowed (by omega)

theorem sound_ensureWritableBytes (sound : Sound b) (ran : b.ensureWritableBytes len = .ok b') :
    Sound b' := by
  obtain ⟨valid', same, -⟩ :=
    holds_of_ok (Buffer.ensureWritableBytes_spec sound.valid len) ran
  refine sound_of_longer sound valid' ?_ (Buffer.ensureWritableBytes_reader ran)
  rw [same]

theorem sound_append (sound : Sound b) (ran : b.append data = .ok b') :
    Sound b' := by
  obtain ⟨valid', content⟩ := holds_of_ok (Buffer.append_spec sound.valid data) ran
  refine sound_of_longer sound valid' ?_ (Buffer.append_reader ran)
  rw [content, List.length_append]
  omega

theorem sound_hasWritten (sound : Sound b) (ran : b.writeThenHasWritten data = .ok b') :
    Sound b' := by
  obtain ⟨_, room, -⟩ := bind_eq_ok.mp ran
  have room : data.length ≤ b.writableBytes := by
    have room := assertThat_eq_ok.mp room
    simpa only [Buffer.writableBytes, length_storeAt] using room
  have reader := Buffer.hasWritten_reader ran
  obtain ⟨valid', content⟩ := holds_of_ok (Buffer.hasWritten_spec sound.valid room) ran
  refine sound_of_longer sound valid' ?_ (Or.inl reader)
  rw [content, List.length_append]
  omega

theorem sound_shrink {reserve : Nat} (ran : b.shrink reserve = .ok b') : Sound b' := by
  obtain ⟨-, valid', cheap, -⟩ := Buffer.shrink_result ran
  exact ⟨valid', roomy_of_reader (Nat.le_of_eq cheap.symm)⟩

theorem readFd_reader {extrabuf : List UInt8} {reading : Buffer.Reading}
    (ran : b.readFd extrabuf (.stored data) = .ok reading) :
    reading.buffer.readerIndex_ = b.readerIndex_ ∨
      reading.buffer.readerIndex_ = kCheapPrepend := by
  simp only [Buffer.readFd] at ran
  split at ran
  · cases ran
    exact Or.inl rfl
  · obtain ⟨appended, grew, rest⟩ := bind_eq_ok.mp ran
    cases rest
    have reader := Buffer.append_reader grew
    exact reader

theorem sound_readFd {extrabuf : List UInt8} {readv : Readv} {reading : Buffer.Reading}
    (sound : Sound b) (possible : (Op.readFd extrabuf readv).Possible b)
    (ran : b.readFd extrabuf readv = .ok reading) : Sound reading.buffer := by
  cases readv with
  | failed errno =>
    cases ran
    exact sound
  | stored data =>
    obtain ⟨c, ran', indexed, content, longer⟩ :=
      Buffer.readFd_stored sound.valid.indexed possible.1 possible.2
    have reader := readFd_reader ran
    rw [ran] at ran'
    cases ran'
    refine sound_of_longer sound (indexed.valid (Nat.le_trans sound.valid.cheap longer)) ?_ reader
    rw [content, List.length_append]
    omega

theorem sound_call (sound : Sound b) (possible : op.Possible b) (allowed : op.LeavesRoom b)
    (ran : op.call b = .ok b') : Sound b' := by
  cases op with
  | append data => exact sound_append sound ran
  | prepend data => exact sound_prepend sound ran
  | retrieve len => exact sound_retrieve sound ran
  | retrieveAll =>
    cases ran
    exact sound_retrieveAll sound.valid
  | unwrite len => exact sound_unwrite sound allowed ran
  | ensureWritableBytes len => exact sound_ensureWritableBytes sound ran
  | hasWritten data => exact sound_hasWritten sound ran
  | shrink reserve => exact sound_shrink ran
  | readFd extrabuf readv =>
    obtain ⟨reading, read, rest⟩ := bind_eq_ok.mp ran
    cases rest
    exact sound_readFd sound possible read

theorem not_roomy_of_not_leavesRoom (refused : ¬op.LeavesRoom b) (ran : op.call b = .ok b') :
    ¬Roomy b' := by
  cases op with
  | unwrite len =>
    obtain ⟨-, room, left⟩ := unwrite_indices ran
    simp only [Op.LeavesRoom, Classical.not_imp] at refused
    intro roomy
    have there := roomy (by omega)
    rw [room] at there
    exact refused.2 there
  | _ => exact absurd trivial refused

section
variable {s t : ι → Buffer} {call : Call ι}

theorem step_on {i : ι} (taken : machine.step s (.on i op) = some t) :
    op.Possible (s i) ∧ ∃ b', op.call (s i) = .ok b' ∧ t = Function.update s i b' := by
  simp only [machine, step] at taken
  split at taken
  · rename_i possible
    refine ⟨possible, ?_⟩
    cases called : op.call (s i) with
    | error e => simp [called, Except.toOption] at taken
    | ok b' =>
      refine ⟨b', rfl, ?_⟩
      simpa [called, Except.toOption, eq_comm] using taken
  · cases taken

theorem sound_step (sound : ∀ i, Sound (s i)) (allowed : LeavesRoom s call)
    (taken : machine.step s call = some t) : ∀ i, Sound (t i) := by
  cases call with
  | on i op =>
    obtain ⟨possible, b', ran, rfl⟩ := step_on taken
    intro j
    by_cases here : j = i
    · subst here
      rw [Function.update_self]
      exact sound_call (sound j) possible allowed ran
    · rw [Function.update_of_ne here]
      exact sound j
  | swap i j =>
    cases taken
    intro k
    by_cases second : k = j
    · subst second
      rw [Function.update_self]
      exact sound i
    · rw [Function.update_of_ne second]
      by_cases first : k = i
      · subst first
        rw [Function.update_self]
        exact sound j
      · rw [Function.update_of_ne first]
        exact sound k

theorem not_roomy_step (refused : ¬LeavesRoom s call) (taken : machine.step s call = some t) :
    ¬∀ i, Roomy (t i) := by
  cases call with
  | on i op =>
    obtain ⟨-, b', ran, rfl⟩ := step_on taken
    intro roomy
    have here := roomy i
    rw [Function.update_self] at here
    exact not_roomy_of_not_leavesRoom refused ran here
  | swap i j => exact absurd trivial refused

theorem sound_built {initialSize : Nat} (made : Buffer.new initialSize = .ok b) : Sound b := by
  obtain ⟨valid, -, -, cheap⟩ := holds_of_ok (Buffer.new_spec initialSize) made
  exact ⟨valid, roomy_of_reader (Nat.le_of_eq cheap.symm)⟩

theorem fillEmptyBuffer_of_sound {M : Type} (sound : Sound b) (empty : b.readableBytes = 0)
    (c : ProtobufCodecLite M) (m : M) : ∃ b', c.fillEmptyBuffer b m = .ok b' := by
  have nothing : b.readable = [] := by
    apply List.eq_nil_of_length_eq_zero
    rw [Buffer.readable_length sound.valid, empty]
  obtain ⟨b', filled, -⟩ :=
    ProtobufCodecLite.fillEmptyBuffer_runs (c := c) (m := m) sound.valid nothing (sound.roomy empty)
  exact ⟨b', filled⟩

/-- The empty Buffers of a run have room in front exactly when every unwrite that empties one
    has found the room there; fillEmptyBuffer then succeeds on each of them. -/
theorem empty_has_room_iff {s' : ι → Buffer} {calls : List (Call ι)}
    (built : ∀ i, ∃ initialSize, Buffer.new initialSize = .ok (s i))
    (ran : machine.run s calls = some s') :
    (machine.Always (fun s => ∀ i, Roomy (s i)) s calls ↔ machine.Within LeavesRoom s calls) ∧
    (machine.Within LeavesRoom s calls → ∀ i, (s' i).readableBytes = 0 →
      ∀ (M : Type) (c : ProtobufCodecLite M) (m : M),
        ∃ b', c.fillEmptyBuffer (s' i) m = .ok b') := by
  have start : ∀ i, Sound (s i) := by
    intro i
    obtain ⟨initialSize, made⟩ := built i
    exact sound_built made
  constructor
  · refine machine.always_iff_within LeavesRoom (fun s => ∀ i, Sound (s i))
      (fun s => ∀ i, Roomy (s i)) ?_ ?_ start (fun i => (start i).roomy) ran
    · intro s call t sound _ allowed taken
      have sound' := sound_step sound allowed taken
      exact ⟨sound', fun i => (sound' i).roomy⟩
    · intro s call t _ _ refused taken
      exact not_roomy_step refused taken
  · intro within i empty M c m
    have kept : ∀ s (call : Call ι) t, (∀ i, Sound (s i)) → LeavesRoom s call →
        machine.step s call = some t → ∀ i, Sound (t i) := by
      intro s call t sound allowed taken
      exact sound_step sound allowed taken
    have sound :=
      machine.within_invariant LeavesRoom (fun s => ∀ i, Sound (s i)) kept start within ran
    exact fillEmptyBuffer_of_sound (sound i) empty c m

end

def tagCodec : ProtobufCodecLite Unit where
  tag_ := [82, 80, 67, 48]
  rawCb_ := none
  parseFromArray := fun _ => some ()
  serialize := fun _ => []
  adler32 := fun _ => 0

def freshBuffer : Buffer := ⟨List.replicate 1032 0, 8, 8⟩

theorem new_freshBuffer : Buffer.new Buffer.kInitialSize = .ok freshBuffer := by decide +kernel

def readRun : List (Call Unit) :=
  [.on () (.append [3]), .on () (.prepend [0, 0, 0, 1]), .on () (.retrieve 5)]

theorem empty_has_room_of_read : ∃ s', machine.run (fun _ : Unit => freshBuffer) readRun = some s' ∧
    (s' ()).readableBytes = 0 ∧ ∃ b', tagCodec.fillEmptyBuffer (s' ()) () = .ok b' := by
  have ran : (machine.run (fun _ : Unit => freshBuffer) readRun).map
      (fun s => (s ()).readableBytes) = some 0 := by decide +kernel
  obtain ⟨s', run, empty⟩ := Option.map_eq_some_iff.mp ran
  have within : machine.Within LeavesRoom (fun _ : Unit => freshBuffer) readRun :=
    machine.within_of_check (by decide +kernel)
  exact ⟨s', run, empty, (empty_has_room_iff (fun _ => ⟨_, new_freshBuffer⟩) run).2 within () empty
    Unit tagCodec ()⟩

def unwriteRun : List (Call Unit) :=
  [.on () (.prepend [1, 2, 3, 4, 5, 6, 7, 8]), .on () (.unwrite 8)]

theorem unwrite_leaves_no_room :
    ∃ s', machine.run (fun _ : Unit => freshBuffer) unwriteRun = some s' ∧
    (s' ()).readableBytes = 0 ∧ (s' ()).prependableBytes = 0 ∧
    tagCodec.fillEmptyBuffer (s' ()) () = .error "len <= prependableBytes()" := by
  have ran : (machine.run (fun _ : Unit => freshBuffer) unwriteRun).map
      (fun s => ((s ()).readableBytes, (s ()).prependableBytes,
        tagCodec.fillEmptyBuffer (s ()) ())) = some (0, 0, .error "len <= prependableBytes()") := by
    decide +kernel
  obtain ⟨s', run, result⟩ := Option.map_eq_some_iff.mp ran
  simp only [Prod.mk.injEq] at result
  exact ⟨s', run, result⟩

end BufferRoom
end Muduo
