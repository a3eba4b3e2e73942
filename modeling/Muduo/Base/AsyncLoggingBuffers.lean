import Muduo.Base.AsyncLogging

/-!
Where the buffers are. The back end begins an iteration with two empty buffers, lends one
or both to the producers when it takes their batch, and gets as many back out of the batch:
it lends the second only when the producers have used theirs, and then the batch has two.
So there is always a buffer when one is needed, and no assertion fails. The output is the
batches as they were written, where a batch of more than 25 buffers is cut to its first
two behind a notice.
-/
namespace Muduo
open Lib
namespace AsyncLogging
open BackEnd (droppedNotice)
variable {SIZE : Nat}

def linesOf (buffers : List (FixedBuffer SIZE)) : List (List Char) :=
  buffers.flatMap FixedBuffer.lines

def bytes (buffers : List (FixedBuffer SIZE)) : List Char := buffers.flatMap FixedBuffer.data

theorem bytes_eq (buffers : List (FixedBuffer SIZE)) :
    bytes buffers = (linesOf buffers).flatten := by
  simp only [bytes, linesOf, List.flatMap_def, List.flatten_flatten, List.map_map]
  rfl

@[simp] theorem linesOf_append (first second : List (FixedBuffer SIZE)) :
    linesOf (first ++ second) = linesOf first ++ linesOf second :=
  List.flatMap_append

@[simp] theorem bytes_append (first second : List (FixedBuffer SIZE)) :
    bytes (first ++ second) = bytes first ++ bytes second :=
  List.flatMap_append

def Iteration.written (it : Iteration SIZE) : List (FixedBuffer SIZE) :=
  if 25 < it.batch.length then it.batch.take 2 else it.batch

def Iteration.shown (it : Iteration SIZE) : List Char := it.notice ++ bytes it.written

/-- The notice is given for more than 25 buffers. -/
def Iteration.Honest (it : Iteration SIZE) : Prop :=
  if 25 < it.batch.length then ∃ now, it.notice = droppedNotice now (it.batch.length - 2)
  else it.notice = []

namespace BackEnd

def unwritten (t : BackEnd SIZE) : List (FixedBuffer SIZE) :=
  match t.point with
  | .writing i => t.buffersToWrite.drop i
  | _ => t.buffersToWrite

def batches (t : BackEnd SIZE) : List (FixedBuffer SIZE) :=
  t.past.flatMap Iteration.batch ++ t.present.batch

structure Spare (t : BackEnd SIZE) : Prop where
  newBuffer1 : t.newBuffer1 = some .empty
  newBuffer2 : t.newBuffer2 = some .empty

structure Lent (t : BackEnd SIZE) : Prop where
  newBuffer1 : t.newBuffer1 = none
  newBuffer2 : t.newBuffer2 = some .empty ∨ t.newBuffer2 = none ∧ 2 ≤ t.buffersToWrite.length
  some_ : t.buffersToWrite ≠ []

structure Idle (t : BackEnd SIZE) : Prop where
  buffersToWrite : t.buffersToWrite = []
  present : t.present = ⟨[], []⟩

def Placed (t : BackEnd SIZE) : Prop :=
  match t.point with
  | .top | .locking | .asleep => Spare t ∧ Idle t
  | .taken => Lent t ∧ t.present = ⟨t.buffersToWrite, []⟩
  | .writing i => Lent t ∧ t.buffersToWrite = t.present.written ∧ t.present.Honest ∧
      i ≤ t.buffersToWrite.length
  | .exited => Idle t

structure Accounted (t : BackEnd SIZE) : Prop where
  placed : Placed t
  written : t.output ++ bytes (unwritten t) =
    t.past.flatMap Iteration.shown ++ (t.present.notice ++ bytes t.buffersToWrite)
  honest : ∀ it ∈ t.past, it.Honest

def Follows (running_ : Bool) : Point → Point → Prop
  | .top, p => p = if running_ then .locking else .exited
  | .locking, p => p = .asleep
  | .taken, p => p = .writing 0
  | .writing i, p => p = .writing (i + 1) ∨ p = .top
  | _, _ => False

section
variable {t : BackEnd SIZE} {now : List Char} {i : Nat}

theorem loopTest_spec (running_ : Bool) (accounted : Accounted t) (point : t.point = .top) :
    ∃ t', t.loopTest running_ = .ok t' ∧ Accounted t' ∧ batches t' = batches t ∧
      Follows running_ t.point t'.point := by
  obtain ⟨placed, written, honest⟩ := accounted
  simp only [Placed, point] at placed
  simp only [unwritten, point] at written
  obtain ⟨spare, idle⟩ := placed
  cases running_ with
  | false => exact ⟨_, rfl, ⟨⟨idle.1, idle.2⟩, written, honest⟩, rfl, by simp [point, Follows]⟩
  | true =>
    refine ⟨{ t with point := .locking }, ?_,
      ⟨⟨⟨spare.1, spare.2⟩, idle.1, idle.2⟩, written, honest⟩, rfl, by simp [point, Follows]⟩
    simp [loopTest, spare.newBuffer1, spare.newBuffer2, idle.buffersToWrite, FixedBuffer.length,
      FixedBuffer.data, FixedBuffer.empty]

theorem dropLarger_spec (running_ : Bool) (accounted : Accounted t) (point : t.point = .taken)
    (now : List Char) :
    ∃ t', t.dropLarger now = .ok t' ∧ Accounted t' ∧ batches t' = batches t ∧
      Follows running_ t.point t'.point := by
  obtain ⟨placed, written, honest⟩ := accounted
  simp only [Placed, point] at placed
  simp only [unwritten, point] at written
  obtain ⟨lent, present⟩ := placed
  have some_ : (!t.buffersToWrite.isEmpty) = true := by
    simpa using lent.some_
  simp only [dropLarger, assertThat_of_true some_, ok_bind]
  by_cases larger : 25 < t.buffersToWrite.length
  · simp only [if_pos larger, pure_eq_ok]
    have two : (t.buffersToWrite.take 2).length = 2 := by
      rw [List.length_take]
      omega
    refine ⟨_, rfl, ⟨⟨⟨lent.newBuffer1, ?_, ?_⟩, ?_, ?_, Nat.zero_le _⟩, ?_, honest⟩, rfl,
      by simp [point, Follows]⟩
    · refine lent.newBuffer2.imp_right ?_
      rintro ⟨none_, -⟩
      exact ⟨none_, by simp only [two, le_refl]⟩
    · intro none_
      have none_ : t.buffersToWrite.take 2 = [] := none_
      rw [none_] at two
      cases two
    · simp only [present, Iteration.written, if_pos larger]
    · simp only [present, Iteration.Honest, if_pos larger]
      exact ⟨now, rfl⟩
    · have before : t.output = t.past.flatMap Iteration.shown := by
        simpa [present] using written
      simp only [unwritten, List.drop_zero, before, List.append_assoc]
  · simp only [if_neg larger, pure_eq_ok]
    refine ⟨_, rfl, ⟨⟨⟨lent.newBuffer1, lent.newBuffer2, lent.some_⟩, ?_, ?_, Nat.zero_le _⟩,
      written, honest⟩, rfl, by simp [point, Follows]⟩
    · simp only [present, Iteration.written, if_neg larger]
    · simp only [present, Iteration.Honest, if_neg larger]

theorem refill_some (b : FixedBuffer SIZE) (buffers : List (FixedBuffer SIZE)) :
    refill (some b) buffers = .ok (some b, buffers) := rfl

theorem refill_none {buffers : List (FixedBuffer SIZE)} (some_ : buffers ≠ []) :
    refill none buffers = .ok (some .empty, buffers.dropLast) := by
  have last : buffers.getLast? = some (buffers.getLast some_) :=
    List.getLast?_eq_some_getLast some_
  simp [refill, some_, last, FixedBuffer.reset]

theorem recycle_spec (lent : Lent t) :
    t.recycle = .ok { t with
      newBuffer1 := some .empty, newBuffer2 := some .empty, buffersToWrite := []
      past := t.past ++ [t.present], present := ⟨[], []⟩, point := .top } := by
  generalize shape : (if 2 < t.buffersToWrite.length then t.buffersToWrite.take 2
    else t.buffersToWrite) = kept
  have length : kept.length = min 2 t.buffersToWrite.length := by
    rw [← shape]
    split
    · rw [List.length_take]
    · omega
  have positive := List.length_pos_iff.mpr lent.some_
  have some_ : kept ≠ [] := by
    intro none_
    simp only [none_, List.length_nil] at length
    omega
  simp only [recycle, shape, lent.newBuffer1, refill_none some_, ok_bind]
  rcases lent.newBuffer2 with there | ⟨gone, two⟩
  · rw [there, refill_some, ok_bind, pure_eq_ok]
  · have second : kept.dropLast ≠ [] := by
      intro none_
      have shorter := congrArg List.length none_
      rw [List.length_dropLast, List.length_nil] at shorter
      omega
    simp only [gone, refill_none second, ok_bind, pure_eq_ok]

theorem write_spec (running_ : Bool) (accounted : Accounted t) (point : t.point = .writing i) :
    ∃ t', t.write i = .ok t' ∧ Accounted t' ∧ batches t' = batches t ∧
      Follows running_ t.point t'.point := by
  obtain ⟨placed, written, honest⟩ := accounted
  simp only [Placed, point] at placed
  simp only [unwritten, point] at written
  obtain ⟨lent, kept, said, bound⟩ := placed
  cases next : t.buffersToWrite[i]? with
  | some buffer =>
    obtain ⟨within, rfl⟩ := List.getElem?_eq_some_iff.mp next
    simp only [write, next, pure_eq_ok]
    refine ⟨_, rfl, ⟨⟨⟨lent.1, lent.2, lent.3⟩, kept, said, within⟩, ?_, honest⟩, rfl,
      by simp [point, Follows]⟩
    rw [List.drop_eq_getElem_cons within] at written
    simp only [unwritten, List.append_assoc]
    exact written
  | none =>
    have all : t.buffersToWrite.length ≤ i := List.getElem?_eq_none_iff.mp next
    simp only [write, next, recycle_spec lent]
    refine ⟨_, rfl, ⟨⟨⟨rfl, rfl⟩, rfl, rfl⟩, ?_, ?_⟩, ?_, by simp [point, Follows]⟩
    · rw [List.drop_of_length_le all, kept] at written
      simpa [unwritten, bytes, Iteration.shown] using written
    · intro it member
      rcases List.mem_append.mp member with old | new
      · exact honest it old
      · rw [List.mem_singleton.mp new]
        exact said
    · simp [batches]

end
end BackEnd

open BackEnd (batches unwritten Accounted Follows)

def waiting (s : AsyncLogging SIZE) : List (FixedBuffer SIZE) :=
  s.buffers_ ++ s.currentBuffer_.toList

/-- The lines that are in a batch or with the producers. -/
def held (s : AsyncLogging SIZE) : List (List Char) := linesOf (batches s.backEnd ++ waiting s)

structure Supplied (s : AsyncLogging SIZE) : Prop where
  running : s.fault = none
  current : s.currentBuffer_ ≠ none
  next : s.nextBuffer_ = some .empty ∨ s.nextBuffer_ = none ∧ s.buffers_ ≠ []
  accounted : Accounted s.backEnd

structure Frame (s t : AsyncLogging SIZE) : Prop where
  running_ : t.running_ = s.running_
  appended : t.appended = s.appended
  atStop : t.atStop = s.atStop
  joined : t.joined = s.joined

inductive Flowed (s : AsyncLogging SIZE) : Label → AsyncLogging SIZE → Prop where
  | append {t : AsyncLogging SIZE} {logline : List Char}
      (frame : Frame { s with appended := s.appended ++ [logline] } t)
      (backEnd : t.backEnd = s.backEnd)
      (kept : logline.length < SIZE → held t = held s ++ [logline]) : Flowed s (.append logline) t
  | stop (first : s.atStop = none) : Flowed s .stop s.stop
  | join (stopping : s.atStop ≠ none) (ended : s.backEnd.point = .exited) :
      Flowed s .join { s with joined := true }
  | takes {t : AsyncLogging SIZE} {now : List Char} (frame : Frame s t)
      (from_ : s.backEnd.point = .locking ∨ s.backEnd.point = .asleep)
      (to_ : t.backEnd.point = .taken) (all : linesOf (batches t.backEnd) = held s)
      (same : held t = held s) : Flowed s (.thread now) t
  | follows {t : AsyncLogging SIZE} {now : List Char} (frame : Frame s t)
      (batches_ : batches t.backEnd = batches s.backEnd) (same : held t = held s)
      (follows_ : Follows s.running_ s.backEnd.point t.backEnd.point) : Flowed s (.thread now) t

section
variable {s t : AsyncLogging SIZE} {logline now : List Char} {l : Label}

theorem lines_append {b : FixedBuffer SIZE} (short : logline.length < b.avail) :
    (b.append logline).lines = b.lines ++ [logline] := by
  simp only [FixedBuffer.append, dif_pos short]

theorem supplied_start : Supplied (start : AsyncLogging SIZE) where
  running := rfl
  current := by simp [start]
  next := Or.inl rfl
  accounted := ⟨⟨⟨rfl, rfl⟩, rfl, rfl⟩, rfl, by simp [start]⟩

theorem append_flows (supplied : Supplied s) (logline : List Char) :
    ∃ t, s.append logline = .ok t ∧ Supplied t ∧ Flowed s (.append logline) t := by
  obtain ⟨running, current, next, accounted⟩ := supplied
  cases holds : s.currentBuffer_ with
  | none => exact absurd holds current
  | some b =>
    simp only [append, holds]
    by_cases room : logline.length < b.avail
    · simp only [if_pos room, pure_eq_ok]
      refine ⟨_, rfl, ⟨running, by simp, next, accounted⟩, .append ⟨rfl, rfl, rfl, rfl⟩ rfl ?_⟩
      intro _
      simp only [held, waiting, holds, linesOf_append, List.append_assoc]
      simp [linesOf, lines_append room]
    · have fresh : s.nextBuffer_.getD .empty = (.empty : FixedBuffer SIZE) := by
        rcases next with there | ⟨gone, -⟩
        · rw [there]
          rfl
        · rw [gone]
          rfl
      simp only [if_neg room, pure_eq_ok, fresh]
      refine ⟨_, rfl, ⟨running, by simp, Or.inr ⟨rfl, by simp⟩, accounted⟩,
        .append ⟨rfl, rfl, rfl, rfl⟩ rfl ?_⟩
      intro short
      have one : ((FixedBuffer.empty : FixedBuffer SIZE).append logline).lines = [logline] :=
        lines_append short
      simp only [held, waiting, holds, linesOf_append, List.append_assoc]
      simp [linesOf, one]

theorem spare_of_point (supplied : Supplied s)
    (point : s.backEnd.point = .top ∨ s.backEnd.point = .locking ∨ s.backEnd.point = .asleep) :
    s.backEnd.Spare ∧ s.backEnd.Idle := by
  have placed := supplied.accounted.placed
  rcases point with point | point | point
  · simpa only [BackEnd.Placed, point] using placed
  · simpa only [BackEnd.Placed, point] using placed
  · simpa only [BackEnd.Placed, point] using placed

theorem takeBuffers_flows (supplied : Supplied s)
    (from_ : s.backEnd.point = .locking ∨ s.backEnd.point = .asleep) (now : List Char) :
    ∃ t, s.takeBuffers = .ok t ∧ Supplied t ∧ Flowed s (.thread now) t := by
  obtain ⟨⟨newBuffer1, newBuffer2⟩, idle⟩ := spare_of_point supplied (Or.inr from_)
  obtain ⟨running, current, next, ⟨-, written, honest⟩⟩ := supplied
  have done : s.backEnd.output = s.backEnd.past.flatMap Iteration.shown := by
    rcases from_ with point | point
    · simpa [unwritten, point, idle.buffersToWrite, idle.present] using written
    · simpa [unwritten, point, idle.buffersToWrite, idle.present] using written
  cases holds : s.currentBuffer_ with
  | none => exact absurd holds current
  | some b =>
    have all :
        linesOf (s.backEnd.past.flatMap Iteration.batch ++ (s.buffers_ ++ [b])) = held s := by
      rw [held, waiting, holds, batches, idle.present, List.append_nil]
      rfl
    have output : s.backEnd.output ++ bytes (s.buffers_ ++ [b]) =
        s.backEnd.past.flatMap Iteration.shown ++ ([] ++ bytes (s.buffers_ ++ [b])) := by
      rw [done, List.nil_append]
    have same : linesOf (s.backEnd.past.flatMap Iteration.batch ++ (s.buffers_ ++ [b]) ++
        (s.backEnd.buffersToWrite ++ s.backEnd.newBuffer1.toList)) = held s := by
      rw [← all, idle.buffersToWrite, newBuffer1, linesOf_append (_ ++ (s.buffers_ ++ [b]))]
      exact List.append_nil _
    have current' : s.backEnd.newBuffer1 ≠ none := by
      simp [newBuffer1]
    simp only [takeBuffers, holds]
    rcases next with there | ⟨gone, some_⟩
    · simp only [there, Option.isNone_some, Bool.false_eq_true, if_false, pure_eq_ok]
      exact ⟨_, rfl, ⟨running, current', Or.inl rfl, ⟨⟨⟨rfl, Or.inl newBuffer2, by simp⟩, rfl⟩,
        output, honest⟩⟩, .takes ⟨rfl, rfl, rfl, rfl⟩ from_ rfl all same⟩
    · have two : 2 ≤ (s.buffers_ ++ [b]).length := by
        have positive := List.length_pos_iff.mpr some_
        rw [List.length_append, List.length_singleton]
        omega
      simp only [gone, Option.isNone_none, if_true, pure_eq_ok]
      exact ⟨_, rfl, ⟨running, current', Or.inl newBuffer2, ⟨⟨⟨rfl, Or.inr ⟨rfl, two⟩, by simp⟩,
        rfl⟩, output, honest⟩⟩, .takes ⟨rfl, rfl, rfl, rfl⟩ from_ rfl all same⟩

theorem continues_flows {t : BackEnd SIZE} (supplied : Supplied s) (accounted : Accounted t)
    (same : batches t = batches s.backEnd)
    (follows_ : Follows s.running_ s.backEnd.point t.point) (now : List Char) :
    Supplied { s with backEnd := t } ∧ Flowed s (.thread now) { s with backEnd := t } := by
  obtain ⟨running, current, next, -⟩ := supplied
  refine ⟨⟨running, current, next, accounted⟩, .follows ⟨rfl, rfl, rfl, rfl⟩ same ?_ follows_⟩
  rw [held, same]
  rfl

theorem lock_flows (supplied : Supplied s) (point : s.backEnd.point = .locking) (now : List Char) :
    ∃ t, s.lock = .ok t ∧ Supplied t ∧ Flowed s (.thread now) t := by
  unfold lock
  split
  · obtain ⟨placed, written, honest⟩ := supplied.accounted
    simp only [BackEnd.Placed, point] at placed
    simp only [unwritten, point] at written
    obtain ⟨spare, idle⟩ := placed
    have accounted' : Accounted { s.backEnd with point := .asleep } :=
      ⟨⟨⟨spare.1, spare.2⟩, idle.1, idle.2⟩, written, honest⟩
    refine ⟨_, rfl, continues_flows supplied accounted' rfl ?_ now⟩
    rw [point]
    rfl
  · exact takeBuffers_flows supplied (Or.inl point) now

theorem threadFunc_flows (supplied : Supplied s) (now : List Char)
    (going : s.backEnd.point ≠ .exited) :
    ∃ t, s.threadFunc now = some (.ok t) ∧ Supplied t ∧ Flowed s (.thread now) t := by
  have accounted := supplied.accounted
  cases point : s.backEnd.point with
  | top =>
    obtain ⟨t, ran, accounted', same, follows_⟩ :=
      BackEnd.loopTest_spec s.running_ accounted point
    refine ⟨{ s with backEnd := t }, ?_, continues_flows supplied accounted' same follows_ now⟩
    simp only [threadFunc, point, ran, Except.map]
  | locking =>
    obtain ⟨t, ran, supplied', flowed⟩ := lock_flows supplied point now
    refine ⟨t, ?_, supplied', flowed⟩
    simp only [threadFunc, point, ran]
  | asleep =>
    obtain ⟨t, ran, supplied', flowed⟩ := takeBuffers_flows supplied (Or.inr point) now
    refine ⟨t, ?_, supplied', flowed⟩
    simp only [threadFunc, point, ran]
  | taken =>
    obtain ⟨t, ran, accounted', same, follows_⟩ :=
      BackEnd.dropLarger_spec s.running_ accounted point now
    refine ⟨{ s with backEnd := t }, ?_, continues_flows supplied accounted' same follows_ now⟩
    simp only [threadFunc, point, ran, Except.map]
  | writing i =>
    obtain ⟨t, ran, accounted', same, follows_⟩ :=
      BackEnd.write_spec s.running_ accounted point
    refine ⟨{ s with backEnd := t }, ?_, continues_flows supplied accounted' same follows_ now⟩
    simp only [threadFunc, point, ran, Except.map]
  | exited => exact absurd point going

theorem step_flows (supplied : Supplied s) (stepped : machine.step s l = some t) :
    Supplied t ∧ Flowed s l t := by
  rw [machine, faults.step_running supplied.running] at stepped
  cases l with
  | append logline =>
    obtain ⟨t', ran, supplied', flowed⟩ := append_flows supplied logline
    simp only [perform, ran, Option.map_some, Faults.settle, Option.some.injEq] at stepped
    exact stepped ▸ ⟨supplied', flowed⟩
  | stop =>
    by_cases first : s.atStop = none
    · simp only [perform, if_pos first, Option.map_some, Faults.settle, Option.some.injEq] at stepped
      obtain ⟨running, current, next, accounted⟩ := supplied
      exact stepped ▸ ⟨⟨running, current, next, accounted⟩, .stop first⟩
    · simp [perform, first] at stepped
  | join =>
    by_cases ended : s.atStop ≠ none ∧ s.joined = false ∧ s.backEnd.point = .exited
    · simp only [perform, if_pos ended, Option.map_some, Faults.settle, Option.some.injEq] at stepped
      obtain ⟨running, current, next, accounted⟩ := supplied
      exact stepped ▸ ⟨⟨running, current, next, accounted⟩, .join ended.1 ended.2.2⟩
    · simp only [perform, if_neg ended] at stepped
      cases stepped
  | thread now =>
    by_cases ended : s.backEnd.point = .exited
    · simp [perform, threadFunc, ended] at stepped
    · obtain ⟨t', ran, supplied', flowed⟩ := threadFunc_flows supplied now ended
      simp only [perform, ran, Option.map_some, Faults.settle, Option.some.injEq] at stepped
      exact stepped ▸ ⟨supplied', flowed⟩

theorem supplied_run {labels : List Label} (supplied : Supplied s)
    (ran : machine.run s labels = some t) : Supplied t := by
  have kept : ∀ (s : AsyncLogging SIZE) l t, Supplied s → machine.step s l = some t →
      Supplied t := by
    intro s l t supplied stepped
    exact (step_flows supplied stepped).1
  exact machine.run_invariant kept supplied ran

theorem refills_of_point {i : Nat} (supplied : Supplied s) (point : s.backEnd.point = .writing i) :
    ∃ first left second rest,
      BackEnd.refill s.backEnd.newBuffer1 (if 2 < s.backEnd.buffersToWrite.length then
        s.backEnd.buffersToWrite.take 2 else s.backEnd.buffersToWrite) = .ok (first, left) ∧
      BackEnd.refill s.backEnd.newBuffer2 left = .ok (second, rest) := by
  have placed := supplied.accounted.placed
  simp only [BackEnd.Placed, point] at placed
  have ran := BackEnd.recycle_spec placed.1
  obtain ⟨⟨first, left⟩, one, ran⟩ := bind_eq_ok.mp ran
  obtain ⟨⟨second, rest⟩, two, -⟩ := bind_eq_ok.mp ran
  exact ⟨first, left, second, rest, one, two⟩

/-- Whatever lines are appended, and however the calls fall between the steps of the back end. -/
theorem never_out_of_buffers {labels : List Label} (ran : machine.run start labels = some s) :
    s.fault = none ∧
    (s.nextBuffer_ = none → s.buffers_ ≠ []) ∧
    s.currentBuffer_ ≠ none ∧
    (s.backEnd.point = .top ∨ s.backEnd.point = .locking ∨ s.backEnd.point = .asleep →
      (∃ b, s.backEnd.newBuffer1 = some b ∧ b.length = 0) ∧
      (∃ b, s.backEnd.newBuffer2 = some b ∧ b.length = 0) ∧ s.backEnd.buffersToWrite = []) ∧
    ∀ i, s.backEnd.point = .writing i → ∃ first left second rest,
      BackEnd.refill s.backEnd.newBuffer1 (if 2 < s.backEnd.buffersToWrite.length then
        s.backEnd.buffersToWrite.take 2 else s.backEnd.buffersToWrite) = .ok (first, left) ∧
      BackEnd.refill s.backEnd.newBuffer2 left = .ok (second, rest) := by
  have supplied := supplied_run supplied_start ran
  refine ⟨supplied.running, ?_, supplied.current, ?_, fun i => refills_of_point supplied⟩
  · intro gone
    rcases supplied.next with there | ⟨-, some_⟩
    · rw [there] at gone
      cases gone
    · exact some_
  · intro point
    obtain ⟨spare, idle⟩ := spare_of_point supplied point
    exact ⟨⟨_, spare.newBuffer1, rfl⟩, ⟨_, spare.newBuffer2, rfl⟩, idle.buffersToWrite⟩

end

def overload : List Label :=
  List.replicate 27 (.append ['a']) ++ List.replicate 6 (.thread "now".toList)

theorem never_out_of_buffers_when_cut : ∃ s : AsyncLogging 2, machine.run start overload = some s ∧
    s.backEnd.past.length = 1 ∧ s.fault = none ∧ s.currentBuffer_ ≠ none := by
  have ran : (machine.run (start : AsyncLogging 2) overload).map
      (fun s => s.backEnd.past.length) = some 1 := by decide +kernel
  obtain ⟨s, run, iterations⟩ := Option.map_eq_some_iff.mp ran
  have result := never_out_of_buffers run
  exact ⟨s, run, iterations, result.1, result.2.2.1⟩

end AsyncLogging
end Muduo
