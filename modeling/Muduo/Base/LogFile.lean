import Muduo.Base.FileUtil
import Muduo.Lib.Calendar
import Muduo.Lib.Machine

/-!
LogFile. Lines are appended to the current file; a new one is opened when the file
has grown past rollSize_, when every checkEveryN_ lines the day turns out to have
changed, or when a caller asks. Each time the clock is read again, and rollFile
declines unless it is past the last roll. So whatever the clock does, the times at
which files are opened increase, and their names, which hold the time, differ.

The clock, fopen and fwrite answer through the labels: each call carries what they
report to it. Host name and process id do not change.
-/
namespace Muduo
open Lib
namespace LogFile
open FileUtil

/-- A positive time_t, as time(NULL) returns it. -/
structure Clock where
  secs : Nat
  positive : 0 < secs
  bounded : secs < 2 ^ 63
  deriving DecidableEq

structure Config where
  basename_ : List Char
  rollSize_ : Int
  flushInterval_ : Int
  checkEveryN_ : Int
  /-- ProcessInfo::hostname() and ProcessInfo::pid() -/
  hostname : List Char
  pid : Nat

def kRollPerSeconds_ : Nat := 60 * 60 * 24

structure State where
  count_ : Int
  startOfPeriod_ : Nat
  lastRoll_ : Nat
  lastFlush_ : Nat
  file_ : Option AppendFile
  /-- The files file_ held before, in opening order. -/
  closed : List AppendFile
  deriving DecidableEq

structure Roll where
  now : Clock
  fp : Bool
  deriving DecidableEq

/-- Null unless the text and its zero fit; timebuf is then not to be read. -/
def strftime (size : Nat) (text : List Char) : Option (List Char) :=
  if text.length < size then some text else none

def timeText (secs : Nat) : List Char := '.' :: ((civil secs).text ++ ['.'])

def getLogFileName (c : Config) (now : Clock) : Checked (List Char) :=
  match strftime 32 (timeText now.secs) with
  | none => .error "timebuf"
  | some timebuf =>
    pure (c.basename_ ++ timebuf ++ c.hostname ++ snprintf 32 ('.' :: decimal c.pid)
      ++ ['.', 'l', 'o', 'g'])

def rollFile (c : Config) (s : State) (r : Roll) : Checked (State × Bool) := do
  let filename ← getLogFileName c r.now
  let start := r.now.secs / kRollPerSeconds_ * kRollPerSeconds_
  if r.now.secs > s.lastRoll_ then do
    let file ← AppendFile.new filename r.fp
    pure ({ s with
      lastRoll_ := r.now.secs, lastFlush_ := r.now.secs, startOfPeriod_ := start,
      file_ := some file, closed := s.closed ++ (s.file_.map AppendFile.close).toList }, true)
  else pure (s, false)

def roll (c : Config) (s : State) (r : Roll) : Checked State := do
  let rolled ← rollFile c s r
  pure rolled.1

def new (c : Config) (r : Roll) : Checked State := do
  assertThat ('/' ∉ c.basename_) "basename.find('/') == string::npos"
  roll c ⟨0, 0, 0, 0, none, []⟩ r

def State.file (s : State) : Checked AppendFile :=
  match s.file_ with
  | none => .error "file_"
  | some file => pure file

def append_unlocked (c : Config) (s : State) (logline : List UInt8) (writes : List Fwrite)
    (now : Clock) (r : Roll) : Checked State := do
  let file ← s.file
  let file ← file.append logline writes
  let s := { s with file_ := some file }
  if file.writtenBytes_ > c.rollSize_ then roll c s r
  else if s.count_ + 1 ≥ c.checkEveryN_ then
    let s := { s with count_ := 0 }
    let thisPeriod_ := now.secs / kRollPerSeconds_ * kRollPerSeconds_
    if thisPeriod_ ≠ s.startOfPeriod_ then roll c s r
    else if (now.secs : Int) - s.lastFlush_ > c.flushInterval_ then
      pure { s with lastFlush_ := now.secs, file_ := some file.flush }
    else pure s
  else pure { s with count_ := s.count_ + 1 }

def flush (s : State) : Checked State := do
  let file ← s.file
  pure { s with file_ := some file.flush }

inductive Call where
  | append (logline : List UInt8) (writes : List Fwrite) (now : Clock) (r : Roll)
  | rollFile (r : Roll)
  | flush
  deriving DecidableEq

def call (c : Config) (s : State) : Call → Checked State
  | .append logline writes now r => append_unlocked c s logline writes now r
  | .rollFile r => roll c s r
  | .flush => LogFile.flush s

/-- A failed assertion ends the process, and with it the run. -/
def machine (c : Config) : Machine State Call where
  step s l := (call c s l).toOption

def State.files (s : State) : List AppendFile := s.closed ++ s.file_.toList

def Call.line : Call → List (List UInt8)
  | .append logline .. => [logline]
  | .rollFile _ | .flush => []

def Call.Accepted : Call → Prop
  | .append logline writes .. => AcceptsAll logline writes
  | .rollFile _ | .flush => True

/-- Every fopen the call may make succeeds. -/
def Call.Opens : Call → Prop
  | .append _ _ _ r | .rollFile r => r.fp = true
  | .flush => True

def nameAt (c : Config) (secs : Nat) : List Char :=
  c.basename_ ++ timeText secs ++ c.hostname ++ snprintf 32 ('.' :: decimal c.pid)
    ++ ['.', 'l', 'o', 'g']

variable {c : Config}

theorem length_timeText_lt (now : Clock) : (timeText now.secs).length < 32 := by
  have year : (decimal (civil now.secs).year).length ≤ 12 :=
    length_decimal_le (by decide) (civil_year_lt now.bounded)
  simp only [timeText, List.length_cons, List.length_append, List.length_nil,
    CivilTime.length_text]
  omega

theorem getLogFileName_eq (c : Config) (now : Clock) :
    getLogFileName c now = .ok (nameAt c now.secs) := by
  unfold getLogFileName strftime
  rw [if_pos (length_timeText_lt now)]
  rfl

theorem timeText_injective {t u : Nat} (same : timeText t = timeText u) : t = u := by
  have inner := List.append_cancel_right (List.cons.inj same).2
  exact civil_injective (CivilTime.text_injective (civil_valid t) (civil_valid u) inner)

theorem nameAt_injective {t u : Nat} (same : nameAt c t = nameAt c u) : t = u := by
  unfold nameAt at same
  have stem := List.append_cancel_right (List.append_cancel_right (List.append_cancel_right same))
  exact timeText_injective (List.append_cancel_left stem)

def State.rolled (c : Config) (s : State) (now : Nat) : State :=
  { s with
    lastRoll_ := now, lastFlush_ := now, startOfPeriod_ := now / kRollPerSeconds_ * kRollPerSeconds_,
    file_ := some ⟨nameAt c now, [], 0, 0⟩,
    closed := s.closed ++ (s.file_.map AppendFile.close).toList }

inductive Rolling (c : Config) (s : State) (r : Roll) : State → Prop where
  | declined (late : r.now.secs ≤ s.lastRoll_) : Rolling c s r s
  | opened (later : s.lastRoll_ < r.now.secs) (fp : r.fp = true) :
      Rolling c s r (s.rolled c r.now.secs)

section
variable {s t : State} {r : Roll}

theorem rollFile_opened (later : s.lastRoll_ < r.now.secs) (fp : r.fp = true) :
    rollFile c s r = .ok (s.rolled c r.now.secs, true) := by
  simp [rollFile, getLogFileName_eq, later, AppendFile.new, fp, State.rolled]

theorem rollFile_declined (late : r.now.secs ≤ s.lastRoll_) :
    rollFile c s r = .ok (s, false) := by
  simp [rollFile, getLogFileName_eq, Nat.not_lt.mpr late]

theorem rollFile_failed (later : s.lastRoll_ < r.now.secs) (fp : r.fp = false) :
    rollFile c s r = .error "fp_" := by
  simp [rollFile, getLogFileName_eq, later, AppendFile.new, fp]

theorem roll_spec (ran : roll c s r = .ok t) : Rolling c s r t := by
  obtain ⟨rolled, returned, result⟩ := bind_eq_ok.mp ran
  cases result
  by_cases later : s.lastRoll_ < r.now.secs
  · cases fp : r.fp with
    | false =>
      rw [rollFile_failed later fp] at returned
      cases returned
    | true =>
      rw [rollFile_opened later fp] at returned
      cases returned
      exact .opened later fp
  · rw [rollFile_declined (Nat.le_of_not_lt later)] at returned
    cases returned
    exact .declined (Nat.le_of_not_lt later)

theorem roll_returns (c : Config) (s : State) (fp : r.fp = true) : ∃ t, roll c s r = .ok t := by
  by_cases later : s.lastRoll_ < r.now.secs
  · exact ⟨_, bind_eq_ok.mpr ⟨_, rollFile_opened later fp, rfl⟩⟩
  · exact ⟨_, bind_eq_ok.mpr ⟨_, rollFile_declined (Nat.le_of_not_lt later), rfl⟩⟩

end

inductive Calling (c : Config) (s : State) (file : AppendFile) : Call → State → Prop where
  | line {logline writes now r} {count : Int} {lastFlush : Nat} {after : AppendFile}
      (same : after.accepted = file.accepted ++ logline) (name : after.filename = file.filename)
      (size : after.writtenBytes_ = file.writtenBytes_ + logline.length)
      (declined : c.rollSize_ < (after.writtenBytes_ : Int) → r.now.secs ≤ s.lastRoll_) :
      Calling c s file (.append logline writes now r)
        { s with file_ := some after, count_ := count, lastFlush_ := lastFlush }
  | lineRolled {logline writes now r} {count : Int} {after : AppendFile}
      (same : after.accepted = file.accepted ++ logline) (name : after.filename = file.filename)
      (size : after.writtenBytes_ = file.writtenBytes_ + logline.length)
      (later : s.lastRoll_ < r.now.secs) :
      Calling c s file (.append logline writes now r)
        (State.rolled c { s with file_ := some after, count_ := count } r.now.secs)
  | declined {r} : Calling c s file (.rollFile r) s
  | rolled {r} (later : s.lastRoll_ < r.now.secs) :
      Calling c s file (.rollFile r) (s.rolled c r.now.secs)
  | flush : Calling c s file .flush { s with file_ := some file.flush }

section
variable {s t : State} {file : AppendFile} {l : Call}

theorem machine_step_eq_some : (machine c).step s l = some t ↔ call c s l = .ok t := by
  simp only [machine]
  cases call c s l <;> simp [Except.toOption]

theorem calling_of_rolling {logline : List UInt8} {writes : List Fwrite} {now : Clock} {r : Roll}
    {count : Int} {after : AppendFile}
    (rolling : Rolling c { s with file_ := some after, count_ := count } r t)
    (same : after.accepted = file.accepted ++ logline) (name : after.filename = file.filename)
    (size : after.writtenBytes_ = file.writtenBytes_ + logline.length) :
    Calling c s file (.append logline writes now r) t := by
  cases rolling with
  | declined late => exact .line same name size (fun _ => late)
  | opened later => exact .lineRolled same name size later

theorem call_spec (current : s.file_ = some file) (accepted : l.Accepted)
    (ran : call c s l = .ok t) : Calling c s file l t := by
  have found : s.file = .ok file := by simp [State.file, current]
  cases l with
  | append logline writes now r =>
    simp only [call, append_unlocked, found, ok_bind,
      AppendFile.append_acceptsAll (f := file) accepted] at ran
    split at ran
    · exact calling_of_rolling (roll_spec ran) rfl rfl rfl
    · next small =>
      split at ran
      · split at ran
        · exact calling_of_rolling (roll_spec ran) rfl rfl rfl
        · split at ran
          · cases ran
            exact .line rfl rfl rfl (fun large => absurd large small)
          · cases ran
            exact .line rfl rfl rfl (fun large => absurd large small)
      · cases ran
        exact .line rfl rfl rfl (fun large => absurd large small)
  | rollFile r =>
    cases roll_spec ran with
    | declined => exact .declined
    | opened later => exact .rolled later
  | flush =>
    simp only [call, LogFile.flush, found, ok_bind] at ran
    cases ran
    exact .flush

theorem call_returns (c : Config) (current : s.file_ = some file) (accepted : l.Accepted)
    (opens : l.Opens) : ∃ t, call c s l = .ok t := by
  have found : s.file = .ok file := by simp [State.file, current]
  cases l with
  | append logline writes now r =>
    simp only [call, append_unlocked, found, ok_bind,
      AppendFile.append_acceptsAll (f := file) accepted]
    split
    · exact roll_returns c _ opens
    · split
      · split
        · exact roll_returns c _ opens
        · split
          · exact ⟨_, rfl⟩
          · exact ⟨_, rfl⟩
      · exact ⟨_, rfl⟩
  | rollFile r => exact roll_returns c s opens
  | flush => exact ⟨_, by rw [call, LogFile.flush, found]; rfl⟩

end

/-- The books of a run: the lines appended are cut into one group for each file, and
    the files are named after increasing times, none past the last roll. -/
structure Books (c : Config) (s : State) (lines : List (List UInt8)) (file : AppendFile)
    (full : List (List (List UInt8))) (group : List (List UInt8)) (times : List Nat) : Prop where
  current : s.file_ = some file
  cut : full.flatten ++ group = lines
  closed : s.closed.map (·.accepted) = full.map List.flatten
  flushed : ∀ f ∈ s.closed, f.flushed = f.accepted.length
  content : file.accepted = group.flatten
  names : (s.closed ++ [file]).map (·.filename) = times.map (nameAt c)
  increasing : times.Pairwise (· < ·)
  past : ∀ time ∈ times, time ≤ s.lastRoll_

def Kept (c : Config) (s : State) (lines : List (List UInt8)) : Prop :=
  ∃ file full group times, Books c s lines file full group times

section
variable {s t : State} {lines : List (List UInt8)} {file after : AppendFile}
  {full : List (List (List UInt8))} {group : List (List UInt8)} {times : List Nat} {r : Roll}

theorem Books.line (books : Books c s lines file full group times) (more : List (List UInt8))
    (same : after.accepted = file.accepted ++ more.flatten)
    (name : after.filename = file.filename) (count : Int) (lastFlush : Nat) :
    Books c { s with file_ := some after, count_ := count, lastFlush_ := lastFlush }
      (lines ++ more) after full (group ++ more) times := by
  refine ⟨rfl, ?_, books.closed, books.flushed, ?_, ?_, books.increasing, books.past⟩
  · rw [← List.append_assoc, books.cut]
  · rw [same, books.content, List.flatten_append]
  · have names := books.names
    simp only [List.map_append, List.map_cons, List.map_nil, name] at names ⊢
    exact names

theorem Books.opened (books : Books c s lines file full group times) {now : Nat}
    (later : s.lastRoll_ < now) :
    Books c (s.rolled c now) lines ⟨nameAt c now, [], 0, 0⟩ (full ++ [group]) []
      (times ++ [now]) := by
  refine ⟨rfl, ?_, ?_, ?_, rfl, ?_, ?_, ?_⟩
  · rw [List.flatten_append, List.flatten_singleton, List.append_nil, books.cut]
  · simp [State.rolled, books.current, books.closed, books.content]
  · intro f member
    simp only [State.rolled, books.current, Option.map_some, Option.toList_some,
      List.mem_append, List.mem_singleton] at member
    rcases member with old | rfl
    · exact books.flushed f old
    · rfl
  · have names := books.names
    simp only [List.map_append, List.map_cons, List.map_nil] at names
    simp [State.rolled, books.current, ← names]
  · refine List.pairwise_append.mpr ⟨books.increasing, List.pairwise_singleton _ _, ?_⟩
    intro time member now' is_now
    rw [List.mem_singleton.mp is_now]
    exact Nat.lt_of_le_of_lt (books.past time member) later
  · intro time member
    rcases List.mem_append.mp member with old | new
    · exact Nat.le_trans (books.past time old) (Nat.le_of_lt later)
    · exact Nat.le_of_eq (List.mem_singleton.mp new)

theorem Kept.step {l : Call} (kept : Kept c s lines) (accepted : l.Accepted)
    (ran : call c s l = .ok t) : Kept c t (lines ++ l.line) := by
  obtain ⟨file, full, group, times, books⟩ := kept
  cases call_spec books.current accepted ran with
  | @line logline _ _ _ _ _ _ same name =>
    exact ⟨_, _, _, _, books.line [logline] (by simpa using same) name _ _⟩
  | @lineRolled logline _ _ _ count _ same name _ later =>
    have written := books.line [logline] (by simpa using same) name count s.lastFlush_
    exact ⟨_, _, _, _, written.opened later⟩
  | declined =>
    rw [Call.line, List.append_nil]
    exact ⟨_, _, _, _, books⟩
  | rolled later =>
    rw [Call.line, List.append_nil]
    exact ⟨_, _, _, _, books.opened later⟩
  | flush =>
    exact ⟨_, _, _, _, books.line [] (by simp) (AppendFile.filename_flush file) s.count_ s.lastFlush_⟩

theorem Kept.run {calls : List Call} (kept : Kept c s lines) (accepted : ∀ l ∈ calls, l.Accepted)
    (ran : (machine c).run s calls = some t) : Kept c t (lines ++ calls.flatMap Call.line) := by
  induction calls generalizing s lines with
  | nil =>
    cases ran
    simpa using kept
  | cons l calls ih =>
    obtain ⟨u, first, rest⟩ := ((machine c).run_cons_eq_some).mp ran
    have next := kept.step (accepted l List.mem_cons_self) (machine_step_eq_some.mp first)
    rw [List.flatMap_cons, ← List.append_assoc]
    exact ih next (fun k member => accepted k (List.mem_cons_of_mem _ member)) rest

theorem Kept.returns {calls : List Call} (kept : Kept c s lines)
    (accepted : ∀ l ∈ calls, l.Accepted) (opens : ∀ l ∈ calls, l.Opens) :
    ∃ t, (machine c).run s calls = some t := by
  induction calls generalizing s lines with
  | nil => exact ⟨s, rfl⟩
  | cons l calls ih =>
    obtain ⟨file, full, group, times, books⟩ := id kept
    have here := accepted l List.mem_cons_self
    obtain ⟨u, one⟩ := call_returns c books.current here (opens l List.mem_cons_self)
    obtain ⟨t, rest⟩ := ih (kept.step here one)
      (fun k member => accepted k (List.mem_cons_of_mem _ member))
      (fun k member => opens k (List.mem_cons_of_mem _ member))
    exact ⟨t, ((machine c).run_cons_eq_some).mpr ⟨u, machine_step_eq_some.mpr one, rest⟩⟩

end

variable {r : Roll} {s : State}

theorem new_returns (flat : '/' ∉ c.basename_) (fp : r.fp = true) :
    ∃ s, new c r = .ok s := by
  obtain ⟨s, ran⟩ := roll_returns c ⟨0, 0, 0, 0, none, []⟩ fp
  exact ⟨s, by simp [new, flat, ran]⟩

theorem new_books (created : new c r = .ok s) :
    Books c s [] ⟨nameAt c r.now.secs, [], 0, 0⟩ [] [] [r.now.secs] := by
  unfold new at created
  obtain ⟨-, -, rolled⟩ := bind_eq_ok.mp created
  cases roll_spec rolled with
  | declined late => exact absurd r.now.positive (Nat.not_lt.mpr late)
  | opened later fp =>
    refine ⟨rfl, rfl, rfl, ?_, rfl, rfl, List.pairwise_singleton _ _, ?_⟩
    · intro f member
      cases member
    · intro time member
      exact Nat.le_of_eq (List.mem_singleton.mp member)

theorem new_kept (created : new c r = .ok s) : Kept c s [] :=
  ⟨_, _, _, _, new_books created⟩

/-- What the files say about the lines appended. -/
structure RollsWithoutLoss (s : State) (lines : List (List UInt8)) : Prop where
  whole : (s.files.map (·.accepted)).flatten = lines.flatten
  in_one_file : ∃ groups : List (List (List UInt8)),
    groups.flatten = lines ∧ s.files.map (·.accepted) = groups.map List.flatten
  names_distinct : (s.files.map (·.filename)).Nodup
  on_disk : ∀ f ∈ s.closed, f.flushed = f.accepted.length

theorem Kept.rollsWithoutLoss {lines : List (List UInt8)} (kept : Kept c s lines) :
    RollsWithoutLoss s lines := by
  obtain ⟨file, full, group, times, books⟩ := kept
  have files : s.files = s.closed ++ [file] := by rw [State.files, books.current]; rfl
  have contents : s.files.map (·.accepted) = (full ++ [group]).map List.flatten := by
    simp [files, books.closed, books.content]
  have cut : (full ++ [group]).flatten = lines := by
    rw [List.flatten_append, List.flatten_singleton, books.cut]
  refine ⟨?_, ⟨_, cut, contents⟩, ?_, books.flushed⟩
  · rw [contents, ← cut, List.flatten_flatten]
  · rw [files, books.names]
    refine List.pairwise_map.mpr (books.increasing.imp ?_)
    intro t u less same
    exact Nat.ne_of_lt less (nameAt_injective same)

/-- Over every sequence of calls and every positive clock, what was appended is what
    the files hold, line by line, under distinct names; and only fopen can end a run. -/
theorem rolls_without_loss (c : Config) (r : Roll) (calls : List Call)
    (accepted : ∀ l ∈ calls, l.Accepted) :
    (∀ s t, new c r = .ok s → (machine c).run s calls = some t →
      RollsWithoutLoss t (calls.flatMap Call.line)) ∧
    ('/' ∉ c.basename_ → r.fp = true → (∀ l ∈ calls, l.Opens) →
      ∃ s t, new c r = .ok s ∧ (machine c).run s calls = some t) := by
  constructor
  · intro s t created ran
    have kept := (new_kept created).run accepted ran
    exact kept.rollsWithoutLoss
  · intro flat fp opens
    obtain ⟨s, created⟩ := new_returns flat fp
    obtain ⟨t, ran⟩ := (new_kept created).returns accepted opens
    exact ⟨s, t, created, ran⟩

def smallConfig : Config := ⟨"log".toList, 3, 3, 2, "host".toList, 7⟩

def firstRoll : Roll := ⟨⟨100, by decide, by decide⟩, true⟩

/-- The first line passes rollSize_ within the second of the first roll, so the roll
    is declined; the second line opens a file, the fourth finds the day changed, and
    the last roll reads a clock that went back. -/
def rollingCalls : List Call :=
  [.append [1, 2, 3, 4] [⟨4, false⟩] firstRoll.now firstRoll,
   .append [5] [⟨1, false⟩] firstRoll.now ⟨⟨200, by decide, by decide⟩, true⟩,
   .append [6] [⟨1, false⟩] firstRoll.now firstRoll,
   .append [7] [⟨1, false⟩] ⟨86400, by decide, by decide⟩ ⟨⟨86401, by decide, by decide⟩, true⟩,
   .append [8] [⟨1, false⟩] firstRoll.now firstRoll,
   .rollFile firstRoll]

theorem rolls_without_loss_in_rollingCalls : ∃ s t,
    new smallConfig firstRoll = .ok s ∧ (machine smallConfig).run s rollingCalls = some t ∧
    RollsWithoutLoss t (rollingCalls.flatMap Call.line) ∧
    t.files.map (·.accepted) = [[1, 2, 3, 4, 5], [6, 7], [8]] := by
  have accepted : ∀ l ∈ rollingCalls, l.Accepted := by
    simp [rollingCalls, Call.Accepted, AcceptsAll]
  obtain ⟨lossless, returns⟩ := rolls_without_loss smallConfig firstRoll rollingCalls accepted
  obtain ⟨s, t, created, ran⟩ := returns (by decide) rfl (by simp [rollingCalls, Call.Opens, firstRoll])
  refine ⟨s, t, created, ran, lossless s t created ran, ?_⟩
  have shown : ((new smallConfig firstRoll).toOption.bind fun s =>
      (machine smallConfig).run s rollingCalls).map (fun t => t.files.map (·.accepted)) =
      some [[1, 2, 3, 4, 5], [6, 7], [8]] := by decide +kernel
  rw [created] at shown
  simpa [Except.toOption, ran] using shown

end LogFile
end Muduo
