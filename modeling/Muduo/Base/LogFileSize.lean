import Muduo.Base.LogFile

/-!
How large a log file becomes. The size is tested after a line was written, and rollFile,
which is to start a new file then, declines when the clock is not past the last roll. A file
that is past rollSize_ and was not rolled takes more lines.
-/
namespace Muduo
open Lib
namespace LogFile
open FileUtil
variable {c : Config} {s t : State} {file : AppendFile} {l : Call}

/-- The file that the next line goes to is not past rollSize_. -/
def WithinSize (c : Config) (s : State) : Prop :=
  ∀ file, s.file_ = some file → (file.writtenBytes_ : Int) ≤ c.rollSize_

/-- A line that takes the file past rollSize_ finds the clock past the last roll. -/
def RollsInTime (c : Config) (s : State) : Call → Prop
  | .append logline _ _ r => ∀ file ∈ s.file_,
      c.rollSize_ < (file.writtenBytes_ + logline.length : Nat) → s.lastRoll_ < r.now.secs
  | .rollFile _ | .flush => True

instance (c : Config) (s : State) : (l : Call) → Decidable (RollsInTime c s l)
  | .append logline _ _ r => inferInstanceAs (Decidable (∀ file ∈ s.file_,
      c.rollSize_ < (file.writtenBytes_ + logline.length : Nat) → s.lastRoll_ < r.now.secs))
  | .rollFile _ | .flush => inferInstanceAs (Decidable True)

theorem withinSize_rolled (current : s.file_ = some file) (within : WithinSize c s) (u : State)
    (now : Nat) : WithinSize c (u.rolled c now) := by
  intro fresh opened
  cases opened
  have size := within file current
  show ((0 : Nat) : Int) ≤ c.rollSize_
  omega

theorem Calling.current (calling : Calling c s file l t) (before : s.file_ = some file) :
    ∃ after, t.file_ = some after := by
  cases calling with
  | line => exact ⟨_, rfl⟩
  | lineRolled => exact ⟨_, rfl⟩
  | declined => exact ⟨file, before⟩
  | rolled => exact ⟨_, rfl⟩
  | flush => exact ⟨_, rfl⟩

theorem Calling.within (calling : Calling c s file l t) (current : s.file_ = some file)
    (within : WithinSize c s) (inTime : RollsInTime c s l) : WithinSize c t := by
  cases calling with
  | line same name size declined =>
    intro after is_after
    cases is_after
    by_contra large
    have late := declined (Int.not_le.mp large)
    have later := inTime file current (by omega)
    omega
  | lineRolled same name size later => exact withinSize_rolled current within _ _
  | declined => exact within
  | rolled later => exact withinSize_rolled current within _ _
  | flush =>
    intro after is_after
    cases is_after
    exact within file current

theorem Calling.past (calling : Calling c s file l t) (current : s.file_ = some file)
    (late : ¬RollsInTime c s l) : ¬WithinSize c t := by
  cases calling with
  | @line logline writes now r _ _ after same name size declined =>
    intro within
    have small := within after rfl
    apply late
    intro file' is_file large
    cases current.symm.trans is_file
    omega
  | lineRolled same name size later => exact absurd (fun _ _ _ => later) late
  | declined => exact absurd trivial late
  | rolled => exact absurd trivial late
  | flush => exact absurd trivial late

structure Sized (c : Config) (s : State) (lines : List (List UInt8)) (file : AppendFile)
    (full : List (List (List UInt8))) (group : List (List UInt8)) (times : List Nat) : Prop
    extends Books c s lines file full group times where
  counted : file.writtenBytes_ = file.accepted.length
  bounded : ∀ g ∈ full ++ [group], (g.dropLast.flatten.length : Int) ≤ c.rollSize_

section
variable {lines : List (List UInt8)} {full : List (List (List UInt8))}
  {group : List (List UInt8)} {times : List Nat}

theorem Sized.nonneg (sized : Sized c s lines file full group times) : 0 ≤ c.rollSize_ := by
  have last := sized.bounded group (by simp)
  omega

theorem Sized.line (sized : Sized c s lines file full group times) (within : WithinSize c s)
    {logline : List UInt8} {after : AppendFile}
    (same : after.accepted = file.accepted ++ logline) (name : after.filename = file.filename)
    (size : after.writtenBytes_ = file.writtenBytes_ + logline.length) (count : Int)
    (lastFlush : Nat) :
    Sized c { s with file_ := some after, count_ := count, lastFlush_ := lastFlush }
      (lines ++ [logline]) after full (group ++ [logline]) times := by
  have before := within file sized.current
  simp only [sized.counted, sized.content] at before
  constructor
  · exact sized.toBooks.line [logline] (by simpa using same) name count lastFlush
  · simp only [size, sized.counted, same, List.length_append]
  · intro g member
    rcases List.mem_append.mp member with old | new
    · exact sized.bounded g (by simp [old])
    · simp only [List.mem_singleton] at new
      simp only [new, List.dropLast_concat]
      exact before

theorem Sized.opened (sized : Sized c s lines file full group times) {now : Nat}
    (later : s.lastRoll_ < now) :
    Sized c (s.rolled c now) lines ⟨nameAt c now, [], 0, 0⟩ (full ++ [group]) []
      (times ++ [now]) := by
  have nonneg := sized.nonneg
  constructor
  · exact sized.toBooks.opened later
  · rfl
  · intro g member
    rcases List.mem_append.mp member with old | new
    · exact sized.bounded g old
    · simpa [List.mem_singleton.mp new] using nonneg

theorem Sized.flush (sized : Sized c s lines file full group times) :
    Sized c { s with file_ := some file.flush } lines file.flush full group times := by
  have same : file.flush.accepted = file.accepted ++ ([] : List (List UInt8)).flatten := by simp
  have books := sized.toBooks.line [] same (AppendFile.filename_flush file) s.count_ s.lastFlush_
  simp only [List.append_nil] at books
  exact ⟨books, sized.counted, sized.bounded⟩

def KeptSize (c : Config) (s : State) (lines : List (List UInt8)) : Prop :=
  WithinSize c s ∧ ∃ file full group times, Sized c s lines file full group times

theorem KeptSize.step (kept : KeptSize c s lines) (accepted : l.Accepted)
    (inTime : RollsInTime c s l) (ran : call c s l = .ok t) : KeptSize c t (lines ++ l.line) := by
  obtain ⟨within, file, full, group, times, sized⟩ := kept
  have calling := call_spec sized.current accepted ran
  constructor
  · exact calling.within sized.current within inTime
  · cases calling with
    | line same name size => exact ⟨_, _, _, _, sized.line within same name size _ _⟩
    | @lineRolled _ _ _ _ count _ same name size later =>
      have written := sized.line within same name size count s.lastFlush_
      exact ⟨_, _, _, _, written.opened later⟩
    | declined =>
      simp only [Call.line, List.append_nil]
      exact ⟨_, _, _, _, sized⟩
    | rolled later =>
      simp only [Call.line, List.append_nil]
      exact ⟨_, _, _, _, sized.opened later⟩
    | flush =>
      simp only [Call.line, List.append_nil]
      exact ⟨_, _, _, _, sized.flush⟩

theorem KeptSize.run {calls : List Call} (kept : KeptSize c s lines)
    (accepted : ∀ l ∈ calls, l.Accepted) (inTime : (machine c).Within (RollsInTime c) s calls)
    (ran : (machine c).run s calls = some t) :
    KeptSize c t (lines ++ calls.flatMap Call.line) := by
  induction calls generalizing s lines with
  | nil =>
    cases ran
    simpa using kept
  | cons l calls ih =>
    obtain ⟨u, first, rest⟩ := ((machine c).run_cons_eq_some).mp ran
    have next := kept.step (accepted l List.mem_cons_self) inTime.1 (machine_step_eq_some.mp first)
    simp only [List.flatMap_cons, ← List.append_assoc]
    apply ih next _ (inTime.2 u first) rest
    intro k member
    exact accepted k (List.mem_cons_of_mem _ member)

end

theorem new_sized {r : Roll} (created : new c r = .ok s) (nonneg : 0 ≤ c.rollSize_) :
    KeptSize c s [] := by
  have books := new_books created
  constructor
  · intro file is_file
    cases books.current.symm.trans is_file
    exact nonneg
  · exact ⟨_, _, _, _, books, rfl, by simpa using nonneg⟩

/-- No file is past rollSize_ before the last of the lines written to it. -/
def BoundedFiles (c : Config) (s : State) (lines : List (List UInt8)) : Prop :=
  ∃ groups : List (List (List UInt8)),
    groups.flatten = lines ∧ s.files.map (·.accepted) = groups.map List.flatten ∧
    ∀ g ∈ groups, (g.dropLast.flatten.length : Int) ≤ c.rollSize_

theorem KeptSize.boundedFiles {lines : List (List UInt8)} (kept : KeptSize c s lines) :
    BoundedFiles c s lines := by
  obtain ⟨-, file, full, group, times, sized⟩ := kept
  have contents : s.files.map (·.accepted) = (full ++ [group]).map List.flatten := by
    simp [State.files, sized.current, sized.closed, sized.content]
  have cut : (full ++ [group]).flatten = lines := by
    simp [← sized.cut]
  exact ⟨full ++ [group], cut, contents, sized.bounded⟩

theorem new_withinSize {r : Roll} (created : new c r = .ok s) :
    WithinSize c s ↔ 0 ≤ c.rollSize_ := by
  constructor
  · intro within
    exact within _ (new_books created).current
  · intro nonneg
    exact (new_sized created nonneg).1

/-- Over every sequence of calls whose lines the files accept, each call finds the current
    file within rollSize_ exactly if every line that took it past found the clock past the last
    roll; then no file is past rollSize_ by more than its last line. -/
theorem rollSize_bounds_files (c : Config) (r : Roll) (calls : List Call) (s t : State)
    (created : new c r = .ok s) (accepted : ∀ l ∈ calls, l.Accepted)
    (ran : (machine c).run s calls = some t) :
    ((machine c).Always (WithinSize c) s calls ↔
      0 ≤ c.rollSize_ ∧ (machine c).Within (RollsInTime c) s calls) ∧
    (0 ≤ c.rollSize_ → (machine c).Within (RollsInTime c) s calls →
      BoundedFiles c t (calls.flatMap Call.line)) := by
  have opened : ∃ file, s.file_ = some file := ⟨_, (new_books created).current⟩
  have equivalent : WithinSize c s → ((machine c).Always (WithinSize c) s calls ↔
      (machine c).Within (RollsInTime c) s calls) := by
    intro within
    apply (machine c).always_iff_within_given (fun _ l => l.Accepted) (RollsInTime c)
      (fun s => ∃ file, s.file_ = some file) (WithinSize c) _ _ opened within
      ((machine c).within_of_labels accepted) ran
    · intro s l t ⟨file, current⟩ within accepted inTime taken
      have calling := call_spec current accepted (machine_step_eq_some.mp taken)
      exact ⟨calling.current current, calling.within current within inTime⟩
    · intro s l t ⟨file, current⟩ within accepted late taken
      have calling := call_spec current accepted (machine_step_eq_some.mp taken)
      exact calling.past current late
  constructor
  · constructor
    · intro always
      have first := (machine c).always_start always
      exact ⟨(new_withinSize created).mp first, (equivalent first).mp always⟩
    · intro ⟨nonneg, inTime⟩
      exact (equivalent ((new_withinSize created).mpr nonneg)).mpr inTime
  · intro nonneg inTime
    have kept := (new_sized created nonneg).run accepted inTime ran
    exact kept.boundedFiles

def firstFile : State := State.rolled smallConfig ⟨0, 0, 0, 0, none, []⟩ 100

theorem new_firstFile : new smallConfig firstRoll = .ok firstFile := by
  have flat : '/' ∉ smallConfig.basename_ := by decide
  simp only [new, roll, assertThat_of_true flat, ok_bind]
  rw [rollFile_opened (by decide) rfl]
  rfl

/-- The second line takes the file past rollSize_, a second after it was opened. -/
def promptCalls : List Call :=
  [.append [1, 2] [⟨2, false⟩] firstRoll.now firstRoll,
   .append [3, 4] [⟨2, false⟩] firstRoll.now ⟨⟨101, by decide, by decide⟩, true⟩,
   .append [5] [⟨1, false⟩] firstRoll.now firstRoll]

theorem rollSize_bounds_files_of_prompt : ∃ t,
    (machine smallConfig).run firstFile promptCalls = some t ∧
    (machine smallConfig).Always (WithinSize smallConfig) firstFile promptCalls ∧
    BoundedFiles smallConfig t (promptCalls.flatMap Call.line) ∧
    t.files.map (·.accepted) = [[1, 2, 3, 4], [5]] := by
  have accepted : ∀ l ∈ promptCalls, l.Accepted := by
    simp [promptCalls, Call.Accepted, AcceptsAll]
  have shown : ((machine smallConfig).run firstFile promptCalls).map
      (fun t => t.files.map (·.accepted)) = some [[1, 2, 3, 4], [5]] := by decide +kernel
  obtain ⟨t, ran, files⟩ := Option.map_eq_some_iff.mp shown
  obtain ⟨bounds, bounded⟩ := rollSize_bounds_files smallConfig firstRoll promptCalls firstFile t
    new_firstFile accepted ran
  have inTime : (machine smallConfig).Within (RollsInTime smallConfig) firstFile promptCalls :=
    (machine smallConfig).within_of_check (by decide +kernel)
  exact ⟨t, ran, bounds.mpr ⟨by decide, inTime⟩, bounded (by decide) inTime, files⟩

def burstCalls : List Call :=
  [.append [1, 2, 3, 4] [⟨4, false⟩] firstRoll.now firstRoll,
   .append [5, 6, 7, 8] [⟨4, false⟩] firstRoll.now firstRoll]

/-- The roll after the first line is declined, so the second finds 4 bytes where rollSize_ is 3,
    and leaves a file that is past it by 5, more than that line. -/
theorem burst_passes_rollSize :
    new smallConfig firstRoll = .ok firstFile ∧ (∀ l ∈ burstCalls, l.Accepted) ∧
    ((machine smallConfig).run firstFile (burstCalls.take 1)).map
      (fun t => t.file_.map (·.writtenBytes_)) = some (some 4) ∧
    smallConfig.rollSize_ = 3 ∧
    ((machine smallConfig).run firstFile burstCalls).map
      (fun t => t.files.map (·.accepted)) = some [[1, 2, 3, 4, 5, 6, 7, 8]] := by
  have accepted : ∀ l ∈ burstCalls, l.Accepted := by
    simp [burstCalls, Call.Accepted, AcceptsAll]
  exact ⟨new_firstFile, accepted, by decide +kernel, rfl, by decide +kernel⟩

end LogFile
end Muduo
