import Muduo.Base.AsyncLoggingLedger
import Muduo.Base.LogFile

/-!
The asynchronous log over its files. threadFunc owns the LogFile: a step of the back end
makes the calls of append and flush that stand in it, and the step is not over before they
are. Every file is then a run of whole lines, and the files together are the lines that the
back end has written. Outside its loop over buffersToWrite nothing waits in a stream: all
that was written is on the disk.

A character of the log is a byte of the file. The clock, fopen and fwrite answer through the
labels.
-/
namespace Muduo
open Lib
namespace AsyncLogging
open BackEnd (batches unwritten droppedNotice)
open LogFile (Config Clock Roll Call Kept)
open FileUtil (AppendFile Fwrite)
variable {SIZE : Nat}

/-- LogFile output(basename_, rollSize_, false), with the defaults of the constructor. -/
def outputConfig (basename_ : List Char) (rollSize_ : Int) (hostname : List Char) (pid : Nat) :
    Config :=
  ⟨basename_, rollSize_, 3, 1024, hostname, pid⟩

def byte (c : Char) : UInt8 := c.toNat.toUInt8

structure Answer where
  writes : List Fwrite
  now : Clock
  r : Roll
  deriving DecidableEq

def Answer.append (a : Answer) (text : List Char) : Call :=
  .append (text.map byte) a.writes a.now a.r

def outputCalls (s : AsyncLogging SIZE) (a : Answer) : Label → List Call
  | .thread now =>
    match s.backEnd.point with
    | .top => if s.running_ then [] else [.flush]
    | .taken =>
      if 25 < s.backEnd.buffersToWrite.length then
        [a.append (droppedNotice now (s.backEnd.buffersToWrite.length - 2))]
      else []
    | .writing i =>
      match s.backEnd.buffersToWrite[i]? with
      | some buffer => [a.append buffer.data]
      | none => [.flush]
    | _ => []
  | _ => []

structure Filed (SIZE : Nat) where
  logging : AsyncLogging SIZE
  output : LogFile.State

namespace Filed

/-- A failed assertion of LogFile ends the process, and with it the run. -/
def step (c : Config) (s : Filed SIZE) (l : Label × Answer) : Option (Filed SIZE) := do
  let logging ← AsyncLogging.machine.step s.logging l.1
  let output ← (LogFile.machine c).run s.output (outputCalls s.logging l.2 l.1)
  pure ⟨logging, output⟩

def machine (c : Config) : Machine (Filed SIZE) (Label × Answer) := ⟨step c⟩

def Accepted (s : Filed SIZE) (l : Label × Answer) : Prop :=
  ∀ call ∈ outputCalls s.logging l.2 l.1, call.Accepted

end Filed

def Iteration.said (it : Iteration SIZE) : List (List Char) :=
  if 25 < it.batch.length then [it.notice] else []

def Iteration.lines (it : Iteration SIZE) (n : Nat) : List (List Char) :=
  it.said ++ linesOf (it.written.take n)

namespace BackEnd

def logged (t : BackEnd SIZE) : List (List Char) :=
  t.past.flatMap (fun it => it.lines it.written.length) ++
    match t.point with
    | .writing i => t.present.lines i
    | _ => []

def Settled (t : BackEnd SIZE) : Prop := ∀ i, t.point ≠ .writing i

end BackEnd

open BackEnd (logged Settled)

def encode (lines : List (List Char)) : List UInt8 := lines.flatten.map byte

structure Hands (b t : BackEnd SIZE) (calls : List Call) (pieces : List (List (List Char))) :
    Prop where
  lines : logged t = logged b ++ pieces.flatten
  appends : calls.flatMap Call.line = pieces.map encode
  flushes : Settled t → calls = [.flush] ∨ Settled b ∧ calls = []

section
variable {s t : AsyncLogging SIZE} {a : Answer} {now : List Char} {i : Nat}

theorem logged_of_settled {b : BackEnd SIZE} (settled : Settled b) :
    logged b = b.past.flatMap fun it => it.lines it.written.length := by
  unfold logged
  cases point : b.point with
  | writing i => exact absurd point (settled i)
  | _ => exact List.append_nil _

theorem hands_nothing {b t : BackEnd SIZE} (settled : Settled b) (settled' : Settled t)
    (past : t.past = b.past) : Hands b t [] [] where
  lines := by
    rw [logged_of_settled settled, logged_of_settled settled', past, List.flatten_nil,
      List.append_nil]
  appends := rfl
  flushes := fun _ => Or.inr ⟨settled, rfl⟩

theorem takeBuffers_past (ran : s.takeBuffers = .ok t) :
    t.backEnd.past = s.backEnd.past ∧ Settled t.backEnd := by
  unfold takeBuffers at ran
  split at ran
  · cases ran
  · dsimp only at ran
    split at ran <;> cases ran <;> exact ⟨rfl, by simp [Settled]⟩

theorem lock_past (ran : s.lock = .ok t) :
    t.backEnd.past = s.backEnd.past ∧ Settled t.backEnd := by
  unfold lock at ran
  split at ran
  · cases ran
    exact ⟨rfl, by simp [Settled]⟩
  · exact takeBuffers_past ran

theorem loopTest_hands {b t : BackEnd SIZE} (running_ : Bool) (point : b.point = .top)
    (ran : b.loopTest running_ = .ok t) : Hands b t (if running_ then [] else [.flush]) [] := by
  have settled : Settled b := by simp [Settled, point]
  unfold BackEnd.loopTest at ran
  cases running_ with
  | true =>
    simp only [if_true] at ran ⊢
    obtain ⟨_, -, ran⟩ := bind_eq_ok.mp ran
    obtain ⟨_, -, ran⟩ := bind_eq_ok.mp ran
    obtain ⟨_, -, ran⟩ := bind_eq_ok.mp ran
    cases ran
    exact hands_nothing settled (by simp [Settled]) rfl
  | false =>
    simp only [Bool.false_eq_true, if_false] at ran ⊢
    cases ran
    have settled' : Settled { b with point := .exited } := by simp [Settled]
    exact ⟨(hands_nothing settled settled' rfl).lines, rfl, fun _ => Or.inl rfl⟩

theorem dropLarger_hands {b t : BackEnd SIZE} (point : b.point = .taken)
    (present : b.present = ⟨b.buffersToWrite, []⟩) (ran : b.dropLarger now = .ok t) :
    ∃ pieces, Hands b t
      (if 25 < b.buffersToWrite.length then
        [a.append (droppedNotice now (b.buffersToWrite.length - 2))] else []) pieces := by
  have settled : Settled b := by simp [Settled, point]
  obtain ⟨_, -, ran⟩ := bind_eq_ok.mp ran
  by_cases larger : 25 < b.buffersToWrite.length
  · simp only [if_pos larger] at ran ⊢
    cases ran
    refine ⟨[[droppedNotice now (b.buffersToWrite.length - 2)]], ?_, ?_,
      fun settled' => absurd rfl (settled' 0)⟩
    · rw [logged_of_settled settled]
      simp [logged, Iteration.lines, Iteration.said, present, larger, linesOf]
    · simp [Answer.append, Call.line, encode]
  · simp only [if_neg larger] at ran ⊢
    cases ran
    refine ⟨[], ?_, rfl, fun settled' => absurd rfl (settled' 0)⟩
    rw [logged_of_settled settled]
    simp [logged, Iteration.lines, Iteration.said, present, larger, linesOf]

theorem write_hands {b t : BackEnd SIZE} (placed : b.Placed) (point : b.point = .writing i)
    (ran : b.write i = .ok t) :
    ∃ pieces, Hands b t (match b.buffersToWrite[i]? with
      | some buffer => [a.append buffer.data]
      | none => [.flush]) pieces := by
  simp only [BackEnd.Placed, point] at placed
  obtain ⟨lent, kept, -, bound⟩ := placed
  unfold BackEnd.write at ran
  cases next : b.buffersToWrite[i]? with
  | some buffer =>
    simp only [next] at ran ⊢
    cases ran
    refine ⟨[buffer.lines], ?_, ?_, ?_⟩
    · have one : b.present.written.take (i + 1) = b.present.written.take i ++ [buffer] := by
        rw [List.take_add_one, ← kept, next, Option.toList_some]
      simp [logged, point, Iteration.lines, one, linesOf]
    · simp [Answer.append, Call.line, encode, FixedBuffer.data]
    · exact fun settled' => absurd rfl (settled' (i + 1))
  | none =>
    simp only [next, BackEnd.recycle_spec lent] at ran ⊢
    cases ran
    have last : i = b.present.written.length := by
      rw [kept] at bound next
      exact Nat.le_antisymm bound (List.getElem?_eq_none_iff.mp next)
    refine ⟨[], ?_, rfl, fun _ => Or.inl rfl⟩
    simp [logged, point, last]

theorem threadFunc_hands (supplied : Supplied s) (ran : s.threadFunc now = some (.ok t)) :
    ∃ pieces, Hands s.backEnd t.backEnd (outputCalls s a (.thread now)) pieces := by
  have placed := supplied.accounted.placed
  unfold threadFunc at ran
  unfold outputCalls
  cases point : s.backEnd.point with
  | top =>
    simp only [point, Option.some.injEq] at ran ⊢
    obtain ⟨b, tested, rfl⟩ := map_eq_ok.mp ran
    exact ⟨[], loopTest_hands s.running_ point tested⟩
  | locking =>
    simp only [point, Option.some.injEq] at ran ⊢
    obtain ⟨past, settled⟩ := lock_past ran
    exact ⟨[], hands_nothing (by simp [Settled, point]) settled past⟩
  | asleep =>
    simp only [point, Option.some.injEq] at ran ⊢
    obtain ⟨past, settled⟩ := takeBuffers_past ran
    exact ⟨[], hands_nothing (by simp [Settled, point]) settled past⟩
  | taken =>
    simp only [point, Option.some.injEq] at ran ⊢
    simp only [BackEnd.Placed, point] at placed
    obtain ⟨b, dropped, rfl⟩ := map_eq_ok.mp ran
    exact dropLarger_hands point placed.2 dropped
  | writing i =>
    simp only [point, Option.some.injEq] at ran ⊢
    obtain ⟨b, wrote, rfl⟩ := map_eq_ok.mp ran
    exact write_hands placed point wrote
  | exited =>
    simp only [point] at ran
    cases ran

theorem step_hands {l : Label} (supplied : Supplied s)
    (stepped : AsyncLogging.machine.step s l = some t) :
    ∃ pieces, Hands s.backEnd t.backEnd (outputCalls s a l) pieces := by
  obtain ⟨-, flowed⟩ := step_flows supplied stepped
  cases l with
  | append | stop | join =>
    have same : t.backEnd = s.backEnd := by
      cases flowed
      first | rfl | assumption
    rw [same]
    exact ⟨[], by rw [List.flatten_nil, List.append_nil], rfl, fun settled => Or.inr ⟨settled, rfl⟩⟩
  | thread now =>
    rw [AsyncLogging.machine, faults.step_running supplied.running] at stepped
    by_cases ended : s.backEnd.point = .exited
    · simp [perform, threadFunc, ended] at stepped
    · obtain ⟨t', ran, -, -⟩ := threadFunc_flows supplied now ended
      simp only [perform, ran, Option.map_some, Faults.settle, Option.some.injEq] at stepped
      exact threadFunc_hands supplied (stepped ▸ ran)

end

/-! Runs. -/

structure Recorded (c : Config) (s : Filed SIZE) : Prop where
  sound : Sound s.logging
  files : ∃ pieces : List (List (List Char)),
    pieces.flatten = logged s.logging.backEnd ∧ Kept c s.output (pieces.map encode)
  onDisk : Settled s.logging.backEnd → ∀ f ∈ s.output.file_, f.flushed = f.accepted.length

section
variable {c : Config} {s t : Filed SIZE} {l : Label × Answer}

theorem flushed_of_flush {before after : LogFile.State}
    (ran : (LogFile.machine c).run before [.flush] = some after) :
    ∀ f ∈ after.file_, f.flushed = f.accepted.length := by
  obtain ⟨u, called, rest⟩ := (LogFile.machine c).run_cons_eq_some.mp ran
  cases rest
  obtain ⟨file, -, returned⟩ := bind_eq_ok.mp (LogFile.machine_step_eq_some.mp called)
  cases returned
  intro f held
  cases held
  rfl

theorem recorded_step (recorded : Recorded c s) (short : l.1.Short SIZE) (accepted : s.Accepted l)
    (stepped : (Filed.machine c).step s l = some t) : Recorded c t := by
  obtain ⟨sound, ⟨pieces, cut, kept⟩, onDisk⟩ := recorded
  obtain ⟨logging, moved, rest⟩ := Option.bind_eq_some_iff.mp stepped
  obtain ⟨output, called, result⟩ := Option.bind_eq_some_iff.mp rest
  cases result
  obtain ⟨more, hands⟩ := step_hands (a := l.2) sound.toSupplied moved
  refine ⟨(step_spec sound short moved).1, ⟨pieces ++ more, ?_, ?_⟩, ?_⟩
  · rw [List.flatten_append, cut, hands.lines]
  · rw [List.map_append, ← hands.appends]
    exact kept.run accepted called
  · intro settled
    rcases hands.flushes settled with flush | ⟨settled', none_⟩
    · rw [flush] at called
      exact flushed_of_flush called
    · rw [none_] at called
      cases called
      exact onDisk settled'

theorem recorded_start {r : Roll} {output : LogFile.State} (created : LogFile.new c r = .ok output) :
    Recorded c (⟨start, output⟩ : Filed SIZE) where
  sound := sound_start
  files := ⟨[], rfl, LogFile.new_kept created⟩
  onDisk := by
    intro _ f held
    rw [(LogFile.new_books created).current] at held
    cases held
    rfl

theorem exists_cut_of_map {α β : Type} (f : α → β) (groups : List (List β)) :
    ∀ xs : List α, groups.flatten = xs.map f →
      ∃ cut : List (List α), cut.flatten = xs ∧ groups = cut.map (List.map f) := by
  induction groups with
  | nil =>
    intro xs whole
    exact ⟨[], (List.map_eq_nil_iff.mp whole.symm).symm, rfl⟩
  | cons group groups ih =>
    intro xs whole
    obtain ⟨first, others, rfl, same, rest⟩ := List.map_eq_append_iff.mp whole.symm
    obtain ⟨cut, flat, mapped⟩ := ih others rest.symm
    exact ⟨first :: cut, by rw [List.flatten_cons, flat], by rw [List.map_cons, same, mapped]⟩

theorem flatten_map_encode (pieces : List (List (List Char))) :
    (pieces.map encode).flatten = encode pieces.flatten := by
  change (pieces.map fun piece => piece.flatten.map byte).flatten = pieces.flatten.flatten.map byte
  simp [List.flatten_flatten, List.map_flatten, Function.comp_def]

theorem Recorded.groups (recorded : Recorded c s) :
    ∃ groups : List (List (List Char)), groups.flatten = logged s.logging.backEnd ∧
      s.output.files.map (·.accepted) = groups.map encode := by
  obtain ⟨pieces, cut, kept⟩ := recorded.files
  obtain ⟨groups, whole, contents⟩ := kept.rollsWithoutLoss.in_one_file
  obtain ⟨cuts, flat, rfl⟩ := exists_cut_of_map encode groups pieces whole
  refine ⟨cuts.map List.flatten, ?_, ?_⟩
  · rw [← cut, ← flat, List.flatten_flatten]
  · rw [contents, List.map_map, List.map_map]
    apply List.map_congr_left
    intro group _
    exact flatten_map_encode group

end

/-! Batches that are written whole. -/

theorem said_of_few {it : Iteration SIZE} (few : it.batch.length ≤ 25) : it.said = [] :=
  if_neg (Nat.not_lt.mpr few)

theorem written_of_few {it : Iteration SIZE} (few : it.batch.length ≤ 25) :
    it.written = it.batch :=
  if_neg (Nat.not_lt.mpr few)

theorem past_lines {past : List (Iteration SIZE)} (few : ∀ it ∈ past, it.batch.length ≤ 25) :
    past.flatMap (fun it => it.lines it.written.length) =
      linesOf (past.flatMap Iteration.batch) := by
  induction past with
  | nil => rfl
  | cons it past ih =>
    obtain ⟨few₁, few₂⟩ := List.forall_mem_cons.mp few
    rw [List.flatMap_cons, List.flatMap_cons, linesOf_append, ih few₂, Iteration.lines,
      List.take_length, said_of_few few₁, written_of_few few₁, List.nil_append]

theorem logged_of_few {b : BackEnd SIZE} (placed : b.Placed)
    (few : ∀ it ∈ b.past ++ [b.present], it.batch.length ≤ 25) :
    logged b ++ linesOf (unwritten b) = linesOf (batches b) := by
  obtain ⟨few₁, few₂⟩ := List.forall_mem_append.mp few
  have few' := few₂ b.present List.mem_cons_self
  have past := past_lines few₁
  rw [batches, linesOf_append]
  unfold BackEnd.Placed at placed
  unfold logged unwritten
  rw [past, List.append_assoc]
  congr 1
  cases point : b.point with
  | writing i =>
    rw [point] at placed
    simp only [placed.2.1, Iteration.lines, said_of_few few', List.nil_append]
    rw [← linesOf_append, List.take_append_drop, written_of_few few']
  | taken =>
    rw [point] at placed
    rw [placed.2, List.nil_append]
  | top | locking | asleep =>
    rw [point] at placed
    rw [placed.2.buffersToWrite, placed.2.present, List.nil_append]
  | exited =>
    rw [point] at placed
    rw [placed.buffersToWrite, placed.present, List.nil_append]

section
variable {c : Config} {r : Roll} {output : LogFile.State} {s : Filed SIZE}
  {labels : List (Label × Answer)}

/-- From the producers to the disk. The files, in the order of their opening, are the lines
    that the back end has written, none of them cut; their names differ; and whenever the
    back end is not in its loop over buffersToWrite, in its waits for one, all of it has
    left the streams. As long as no batch has more than 25 buffers, what the files hold
    and what the buffers still hold is every line, in the order of append. -/
theorem files_hold_lines (created : LogFile.new c r = .ok output)
    (within : (Filed.machine c).Within (fun s l => l.1.Short SIZE ∧ s.Accepted l)
      (⟨start, output⟩ : Filed SIZE) labels)
    (ran : (Filed.machine c).run ⟨start, output⟩ labels = some s) :
    (∃ groups : List (List (List Char)), groups.flatten = logged s.logging.backEnd ∧
      s.output.files.map (·.accepted) = groups.map encode) ∧
    (s.output.files.map (·.filename)).Nodup ∧
    (Settled s.logging.backEnd → ∀ f ∈ s.output.files, f.flushed = f.accepted.length) ∧
    ((∀ it ∈ s.logging.backEnd.past ++ [s.logging.backEnd.present], it.batch.length ≤ 25) →
      logged s.logging.backEnd ++ linesOf (unwritten s.logging.backEnd) ++
        linesOf (s.logging.buffers_ ++ s.logging.currentBuffer_.toList) =
          s.logging.appended) := by
  have recorded : Recorded c s := by
    apply (Filed.machine c).within_invariant _ _ _ (recorded_start created) within ran
    intro s l t recorded here stepped
    exact recorded_step recorded here.1 here.2 stepped
  obtain ⟨pieces, -, kept⟩ := recorded.files
  have lossless := kept.rollsWithoutLoss
  refine ⟨recorded.groups, lossless.names_distinct, ?_, ?_⟩
  · intro settled f member
    rcases List.mem_append.mp member with closed | current
    · exact lossless.on_disk f closed
    · exact recorded.onDisk settled f (Option.mem_toList.mp current)
  · intro few
    rw [logged_of_few recorded.sound.accounted.placed few, recorded.sound.ledger,
      held, linesOf_append (batches _), waiting]

end

instance (l : Label) : Decidable (l.Short SIZE) :=
  match l with
  | .append logline => inferInstanceAs (Decidable (logline.length < SIZE))
  | .stop | .join | .thread _ => instDecidableTrue

instance (call : Call) : Decidable call.Accepted :=
  match call with
  | .append logline writes _ _ => inferInstanceAs (Decidable (FileUtil.AcceptsAll logline writes))
  | .rollFile _ | .flush => instDecidableTrue

instance (s : Filed SIZE) (l : Label × Answer) : Decidable (s.Accepted l) :=
  inferInstanceAs (Decidable (∀ call ∈ outputCalls s.logging l.2 l.1, call.Accepted))

def tinyOutput : Config := outputConfig "log".toList 2 "host".toList 7

def instant (n : Fin 60) : Clock := ⟨n + 1, Nat.succ_pos n, by omega⟩

def answer (accepts : Nat) (n : Fin 60) : Answer :=
  ⟨if accepts = 0 then [] else [⟨accepts, false⟩], instant n, ⟨instant n, true⟩⟩

/-- Two lines, each in a buffer of its own; the first fills its file, and stop() comes while
    the back end writes. -/
def twoFiles : List (Label × Answer) :=
  [(.append "abc".toList, answer 0 0), (.append "d".toList, answer 0 0)] ++
    List.replicate 3 (.thread [], answer 0 0) ++
    [(.thread [], answer 3 1), (.thread [], answer 1 1), (.stop, answer 0 0)] ++
    List.replicate 2 (.thread [], answer 0 0)

def tinyStart : Filed 4 :=
  ⟨start, ⟨0, 0, 1, 1, some ⟨LogFile.nameAt tinyOutput 1, [], 0, 0⟩, []⟩⟩

theorem files_hold_lines_of_two : ∃ s, (Filed.machine tinyOutput).run tinyStart twoFiles = some s ∧
    Settled s.logging.backEnd ∧ (∀ f ∈ s.output.files, f.flushed = f.accepted.length) ∧
    s.output.files.map (·.accepted) = [encode ["abc".toList], encode ["d".toList]] ∧
    ∃ groups : List (List (List Char)), groups.flatten = logged s.logging.backEnd ∧
      s.output.files.map (·.accepted) = groups.map encode := by
  have created : LogFile.new tinyOutput ⟨instant 0, true⟩ = .ok tinyStart.output := by
    decide +kernel
  have shown : ((Filed.machine tinyOutput).run tinyStart twoFiles).map
      (fun s => (s.logging.backEnd.point, s.output.files.map (·.accepted))) =
      some (.exited, [encode ["abc".toList], encode ["d".toList]]) := by decide +kernel
  obtain ⟨s, ran, same⟩ := Option.map_eq_some_iff.mp shown
  obtain ⟨point, contents⟩ := Prod.mk.inj same
  have settled : Settled s.logging.backEnd := by simp [Settled, point]
  obtain ⟨groups, -, onDisk, -⟩ := files_hold_lines created
    ((Filed.machine tinyOutput).within_of_check (by decide +kernel)) ran
  exact ⟨s, ran, settled, onDisk settled, contents, groups⟩

end AsyncLogging
end Muduo
