import Muduo.Base.AsyncLoggingLedger

/-!
Whole runs of the asynchronous log: no line is lost or repeated but those of the buffers
that a notice speaks of, and what stop() leaves behind. stop() only clears running_, which
the back end reads before it takes a batch. Lines that it has not taken by then are written
only if it is between that test and the end of the locked section.
-/
namespace Muduo
open Lib
namespace AsyncLogging
open BackEnd (batches unwritten Accounted Follows)
variable {SIZE n : Nat} {s t : AsyncLogging SIZE} {l : Label} {labels : List Label}

theorem sound_run (short : ∀ l ∈ labels, l.Short SIZE) (sound : Sound s)
    (ran : machine.run s labels = some t) : Sound t :=
  machine.within_invariant (fun _ l => l.Short SIZE) Sound
    (fun _ _ _ sound short stepped => (step_spec sound short stepped).1) sound
    (machine.within_of_labels short) ran

/-! Conservation. -/

def begun (t : BackEnd SIZE) : List (Iteration SIZE) :=
  match t.point with
  | .writing _ => t.past ++ [t.present]
  | _ => t.past

def remainder (t : BackEnd SIZE) : List (FixedBuffer SIZE) :=
  match t.point with
  | .writing i => t.present.written.drop i
  | _ => []

theorem placed_cases {b : BackEnd SIZE} (placed : b.Placed) :
    (∃ i, b.point = .writing i ∧ b.buffersToWrite = b.present.written ∧ b.present.Honest) ∨
      (unwritten b = b.buffersToWrite ∧ begun b = b.past ∧ remainder b = [] ∧
        b.present = ⟨b.buffersToWrite, []⟩) := by
  have idle : b.Idle → b.present = ⟨b.buffersToWrite, []⟩ := by
    rintro ⟨none_, present⟩
    rw [none_, present]
  unfold BackEnd.Placed at placed
  unfold unwritten begun remainder
  cases point : b.point with
  | top | locking | asleep =>
    rw [point] at placed
    exact Or.inr ⟨rfl, rfl, rfl, idle placed.2⟩
  | taken =>
    rw [point] at placed
    exact Or.inr ⟨rfl, rfl, rfl, placed.2⟩
  | writing i =>
    rw [point] at placed
    exact Or.inl ⟨i, rfl, placed.2.1, placed.2.2.1⟩
  | exited =>
    rw [point] at placed
    exact Or.inr ⟨rfl, rfl, rfl, idle placed⟩

theorem begun_shown {b : BackEnd SIZE} (accounted : Accounted b) :
    b.output ++ bytes (remainder b) = (begun b).flatMap Iteration.shown ∧
      ∀ it ∈ begun b, it.Honest := by
  obtain ⟨placed, written, honest⟩ := accounted
  rcases placed_cases placed with ⟨i, point, kept, said⟩ | ⟨all, past, none_, present⟩
  · simp only [unwritten, point] at written
    simp only [begun, remainder, point, List.flatMap_append, List.mem_append, List.mem_singleton]
    rw [kept] at written
    refine ⟨?_, ?_⟩
    · rw [written]
      simp [Iteration.shown]
    · rintro it (old | rfl)
      · exact honest it old
      · exact said
  · rw [past, none_]
    refine ⟨?_, honest⟩
    rw [all, present, List.nil_append] at written
    rw [List.append_cancel_right written]
    exact List.append_nil _

theorem shown_of_few {it : Iteration SIZE} (honest : it.Honest) (few : it.batch.length ≤ 25) :
    it.shown = bytes it.batch := by
  have small : ¬25 < it.batch.length := by omega
  simp only [Iteration.Honest, if_neg small] at honest
  simp only [Iteration.shown, Iteration.written, if_neg small, honest, List.nil_append]

theorem past_shown {past : List (Iteration SIZE)} (honest : ∀ it ∈ past, it.Honest)
    (few : ∀ it ∈ past, it.batch.length ≤ 25) :
    past.flatMap Iteration.shown = bytes (past.flatMap Iteration.batch) := by
  induction past with
  | nil => rfl
  | cons it past ih =>
    obtain ⟨honest₁, honest₂⟩ := List.forall_mem_cons.mp honest
    obtain ⟨few₁, few₂⟩ := List.forall_mem_cons.mp few
    rw [List.flatMap_cons, List.flatMap_cons, bytes_append, shown_of_few honest₁ few₁,
      ih honest₂ few₂]

theorem output_of_few {b : BackEnd SIZE} (accounted : Accounted b)
    (few : ∀ it ∈ b.past ++ [b.present], it.batch.length ≤ 25) :
    b.output ++ bytes (unwritten b) = bytes (batches b) := by
  obtain ⟨placed, written, honest⟩ := accounted
  have few' : b.present.batch.length ≤ 25 := few _ (by simp)
  have present : b.present.notice ++ bytes b.buffersToWrite = bytes b.present.batch := by
    rcases placed_cases placed with ⟨i, -, kept, said⟩ | ⟨-, -, -, present⟩
    · rw [kept]
      exact shown_of_few said few'
    · rw [present]
      rfl
  rw [written, present, batches, bytes_append,
    past_shown honest fun it member => few it (List.mem_append_left _ member)]

/-- Every line is in one place: in a batch that was taken, in buffers_ or in
    currentBuffer_, all in the order of append. The output, with what is still to be
    written, is that of the iterations: their batches, of which those of more than 25
    buffers are cut to the first two behind a notice. If there is no such batch, the
    output and all buffers together are all lines. No assertion fails. -/
theorem logging_conserves (short : ∀ l ∈ labels, l.Short SIZE)
    (ran : machine.run start labels = some s) :
    s.fault = none ∧
    s.appended = linesOf (batches s.backEnd ++ (s.buffers_ ++ s.currentBuffer_.toList)) ∧
    s.backEnd.output ++ bytes (remainder s.backEnd) =
      (begun s.backEnd).flatMap Iteration.shown ∧
    (∀ it ∈ begun s.backEnd, it.Honest) ∧
    ((∀ it ∈ s.backEnd.past ++ [s.backEnd.present], it.batch.length ≤ 25) →
      s.backEnd.output ++ bytes (unwritten s.backEnd) ++ bytes s.buffers_ ++
        bytes s.currentBuffer_.toList = s.appended.flatten) := by
  have sound := sound_run short sound_start ran
  obtain ⟨shown, honest⟩ := begun_shown sound.accounted
  refine ⟨sound.running, sound.ledger, shown, honest, ?_⟩
  intro few
  rw [output_of_few sound.accounted few, sound.ledger, held, ← bytes_eq, waiting, bytes_append,
    bytes_append, List.append_assoc]

theorem logging_conserves_of_overload :
    ∃ s : AsyncLogging 2, machine.run start overload = some s ∧ s.fault = none ∧
      s.appended = linesOf (batches s.backEnd ++ (s.buffers_ ++ s.currentBuffer_.toList)) ∧
      s.appended = List.replicate 27 ['a'] ∧
      s.backEnd.output = "Dropped log messages at now, 25 larger buffers\naa".toList := by
  have short : ∀ l ∈ overload, l.Short 2 := by
    intro l member
    rcases List.mem_append.mp member with lines | steps
    · rw [List.eq_of_mem_replicate lines]
      exact Nat.lt_succ_self 1
    · rw [List.eq_of_mem_replicate steps]
      trivial
  have shown : (machine.run (start : AsyncLogging 2) overload).map
      (fun s => (s.appended, s.backEnd.output)) =
      some (List.replicate 27 ['a'], "Dropped log messages at now, 25 larger buffers\naa".toList) := by
    decide +kernel
  obtain ⟨s, ran, same⟩ := Option.map_eq_some_iff.mp shown
  obtain ⟨appended, output⟩ := Prod.mk.inj same
  obtain ⟨safe, ledger, -⟩ := logging_conserves short ran
  exact ⟨s, ran, safe, ledger, appended, output⟩

/-! What stop() leaves behind. -/

/-- The back end has tested running_ and has not taken its batch. -/
def BackEnd.Taking (b : BackEnd SIZE) : Prop := b.point = .locking ∨ b.point = .asleep

instance (b : BackEnd SIZE) : Decidable b.Taking := inferInstanceAs (Decidable (_ ∨ _))

def InTime (s : AsyncLogging SIZE) : Prop := s.backEnd.Taking ∨ bytes (waiting s) = []

instance (s : AsyncLogging SIZE) : Decidable (InTime s) := inferInstanceAs (Decidable (_ ∨ _))

def Saved (n : Nat) (s : AsyncLogging SIZE) : Prop :=
  s.backEnd.Taking ∨ (s.appended.take n).flatten <+: bytes (batches s.backEnd)

structure Stopped (n : Nat) (s : AsyncLogging SIZE) : Prop where
  atStop : s.atStop = some n
  running_ : s.running_ = false
  bound : n ≤ s.appended.length

theorem flatten_take_prefix (lines : List (List Char)) (n : Nat) :
    (lines.take n).flatten <+: lines.flatten := by
  refine ⟨(lines.drop n).flatten, ?_⟩
  rw [← List.flatten_append, List.take_append_drop]

theorem taking_of_follows {p q : Point} (follows_ : Follows false p q) :
    (q = .locking ∨ q = .asleep) ↔ (p = .locking ∨ p = .asleep) := by
  cases p with
  | top =>
    obtain rfl : q = .exited := follows_
    decide
  | locking =>
    obtain rfl : q = .asleep := follows_
    decide
  | asleep => exact absurd follows_ not_false
  | taken =>
    obtain rfl : q = .writing 0 := follows_
    decide
  | writing i => rcases follows_ with rfl | rfl <;> simp
  | exited => exact absurd follows_ not_false

theorem Stopped.frame (stopped : Stopped n s) (frame : Frame s t) : Stopped n t := by
  refine ⟨frame.atStop.trans stopped.atStop, frame.running_.trans stopped.running_, ?_⟩
  rw [frame.appended]
  exact stopped.bound

theorem saved_step (sound : Sound s) (stopped : Stopped n s) (flowed : Flowed s l t) :
    Stopped n t ∧ (Saved n t ↔ Saved n s) := by
  have ⟨atStop, running_, bound⟩ := stopped
  cases flowed with
  | @append _ logline frame backEnd =>
    have appended : t.appended = s.appended ++ [logline] := frame.appended
    refine ⟨⟨frame.atStop.trans atStop, frame.running_.trans running_, ?_⟩, ?_⟩
    · rw [appended, List.length_append]
      omega
    · rw [Saved, Saved, backEnd, appended, List.take_append_of_le_length bound]
  | stop first => simp [first] at atStop
  | join => exact ⟨⟨atStop, running_, bound⟩, Iff.rfl⟩
  | takes frame from_ to_ all =>
    refine ⟨stopped.frame frame, ?_⟩
    have after : Saved n t := by
      right
      rw [bytes_eq, all, frame.appended, ← sound.ledger]
      exact flatten_take_prefix _ n
    exact iff_of_true after (Or.inl from_)
  | follows frame batches_ _ follows_ =>
    refine ⟨stopped.frame frame, ?_⟩
    rw [running_] at follows_
    rw [Saved, Saved, frame.appended, batches_]
    exact or_congr (taking_of_follows follows_) Iff.rfl

theorem saved_run (short : ∀ l ∈ labels, l.Short SIZE) (sound : Sound s) (stopped : Stopped n s)
    (ran : machine.run s labels = some t) :
    Stopped n t ∧ (Saved n t ↔ Saved n s) ∧
      machine.Within (fun s l => l = .stop → InTime s) s labels := by
  induction labels generalizing s with
  | nil =>
    cases ran
    exact ⟨stopped, Iff.rfl, trivial⟩
  | cons l labels ih =>
    obtain ⟨short₁, short₂⟩ := List.forall_mem_cons.mp short
    obtain ⟨u, stepped, rest⟩ := machine.run_cons_eq_some.mp ran
    obtain ⟨sound', flowed⟩ := step_spec sound short₁ stepped
    obtain ⟨stopped', same⟩ := saved_step sound stopped flowed
    obtain ⟨stopped'', same', within⟩ := ih short₂ sound' stopped' rest
    refine ⟨stopped'', same'.trans same, ?_, ?_⟩
    · rintro rfl
      cases flowed with
      | stop first => exact absurd stopped.atStop (by simp [first])
    · intro v stepped'
      obtain rfl : u = v := Option.some.inj (stepped.symm.trans stepped')
      exact within

theorem saved_stop (sound : Sound s) : Saved s.appended.length s.stop ↔ InTime s := by
  have ledger : s.appended.flatten = bytes (batches s.backEnd) ++ bytes (waiting s) := by
    rw [sound.ledger, held, ← bytes_eq, bytes_append]
  refine or_congr Iff.rfl ?_
  have all : s.stop.appended.take s.appended.length = s.appended := List.take_length
  have only : bytes (batches s.stop.backEnd) = bytes (batches s.backEnd) ++ [] :=
    (List.append_nil _).symm
  rw [all, ledger, only, List.prefix_append_right_inj, List.prefix_nil]

theorem saved_iff_within (short : ∀ l ∈ labels, l.Short SIZE) (sound : Sound s)
    (unstopped : s.atStop = none) (ran : machine.run s labels = some t)
    (stopped : t.atStop = some n) :
    Saved n t ↔ machine.Within (fun s l => l = .stop → InTime s) s labels := by
  induction labels generalizing s with
  | nil =>
    cases ran
    simp [unstopped] at stopped
  | cons l labels ih =>
    obtain ⟨short₁, short₂⟩ := List.forall_mem_cons.mp short
    obtain ⟨u, stepped, rest⟩ := machine.run_cons_eq_some.mp ran
    obtain ⟨sound', flowed⟩ := step_spec sound short₁ stepped
    have next : machine.Within (fun s l => l = .stop → InTime s) s (l :: labels) ↔
        (l = .stop → InTime s) ∧ machine.Within (fun s l => l = .stop → InTime s) u labels := by
      simp only [Machine.Within, stepped, Option.some.injEq, forall_eq']
    rw [next]
    cases flowed with
    | append frame | takes frame | follows frame =>
      rw [ih short₂ sound' (frame.atStop.trans unstopped) rest]
      simp
    | stop =>
      obtain ⟨stopped', same, within⟩ := saved_run short₂ sound' ⟨rfl, rfl, Nat.le_refl _⟩ rest
      obtain rfl : s.appended.length = n := Option.some.inj (stopped'.atStop.symm.trans stopped)
      rw [same, saved_stop sound]
      simp [within]
    | join stopping => exact absurd unstopped stopping

structure Joins (s : AsyncLogging SIZE) : Prop where
  sound : Sound s
  ended : s.joined = true → s.backEnd.point = .exited ∧ s.atStop ≠ none

theorem joins_step (joins : Joins s) (short : l.Short SIZE) (stepped : machine.step s l = some t) :
    Joins t := by
  obtain ⟨sound, ended⟩ := joins
  obtain ⟨sound', flowed⟩ := step_spec sound short stepped
  refine ⟨sound', ?_⟩
  cases flowed with
  | append frame backEnd =>
    rw [frame.joined, frame.atStop, backEnd]
    exact ended
  | stop first => exact fun joined => absurd first (ended joined).2
  | join stopping exited => exact fun _ => ⟨exited, stopping⟩
  | takes frame from_ =>
    rw [frame.joined]
    intro joined
    rcases from_ with point | point <;> simp [(ended joined).1] at point
  | follows frame _ _ follows_ =>
    rw [frame.joined]
    intro joined
    rw [(ended joined).1] at follows_
    exact absurd follows_ not_false

theorem joins_run (short : ∀ l ∈ labels, l.Short SIZE) (ran : machine.run start labels = some s) :
    Joins s :=
  machine.within_invariant (fun _ l => l.Short SIZE) Joins
    (fun _ _ _ joins short stepped => joins_step joins short stepped)
    ⟨sound_start, by simp [start]⟩ (machine.within_of_labels short) ran

/-- When stop() has returned, all lines that were appended before it was called are in the
    output exactly when the call came while the back end was between its test of running_
    and the end of the locked section, or when it held nothing to take. -/
theorem stop_flushes_iff (short : ∀ l ∈ labels, l.Short SIZE)
    (ran : machine.run start labels = some s) (returned : s.joined = true)
    (few : ∀ it ∈ s.backEnd.past, it.batch.length ≤ 25) :
    (∀ n, s.atStop = some n → (s.appended.take n).flatten <+: s.backEnd.output) ↔
      machine.Within (fun s l => l = .stop → InTime s)
        (start : AsyncLogging SIZE) labels := by
  obtain ⟨exited, stopped⟩ := (joins_run short ran).ended returned
  obtain ⟨n, stopped⟩ := Option.ne_none_iff_exists'.mp stopped
  have sound := sound_run short sound_start ran
  have idle : s.backEnd.Idle := by
    have placed := sound.accounted.placed
    rwa [BackEnd.Placed, exited] at placed
  have output : s.backEnd.output = bytes (batches s.backEnd) := by
    have few' : ∀ it ∈ s.backEnd.past ++ [s.backEnd.present], it.batch.length ≤ 25 := by
      intro it member
      rcases List.mem_append.mp member with old | new
      · exact few it old
      · rw [List.mem_singleton.mp new, idle.present]
        exact Nat.zero_le 25
    have all := output_of_few sound.accounted few'
    simpa [unwritten, exited, idle.buffersToWrite, bytes] using all
  have ended : ¬s.backEnd.Taking := by
    simp [BackEnd.Taking, exited]
  rw [← saved_iff_within short sound_start rfl ran stopped, Saved, ← output,
    or_iff_right ended]
  constructor
  · intro all
    exact all n stopped
  · intro saved k same
    obtain rfl : n = k := Option.some.inj (stopped.symm.trans same)
    exact saved

/-- stop() comes while the back end waits for the lock. -/
def timelyStop : List Label :=
  [.append ['a'], .thread [], .stop] ++ List.replicate 6 (.thread []) ++ [.join]

theorem stop_flushes_of_timely :
    ∃ s : AsyncLogging kLargeBuffer, machine.run start timelyStop = some s ∧ s.joined = true ∧
      s.appended = [['a']] ∧
      ∀ n, s.atStop = some n → (s.appended.take n).flatten <+: s.backEnd.output := by
  have short : ∀ l ∈ timelyStop, l.Short kLargeBuffer := by
    simp [timelyStop, Label.Short, kLargeBuffer]
  have shown : (machine.run (start : AsyncLogging kLargeBuffer) timelyStop).map
      (fun s => (s.joined, s.appended, s.backEnd.past.map fun it => it.batch.length)) =
      some (true, [['a']], [1]) := by
    decide +kernel
  obtain ⟨s, ran, same⟩ := Option.map_eq_some_iff.mp shown
  obtain ⟨joined, same⟩ := Prod.mk.inj same
  obtain ⟨appended, lengths⟩ := Prod.mk.inj same
  have few : ∀ it ∈ s.backEnd.past, it.batch.length ≤ 25 := by
    intro it member
    have listed : it.batch.length ∈ s.backEnd.past.map fun it => it.batch.length :=
      List.mem_map.mpr ⟨it, member, rfl⟩
    rw [lengths, List.mem_singleton] at listed
    omega
  have within : machine.Within (fun s l => l = .stop → InTime s)
      (start : AsyncLogging kLargeBuffer) timelyStop :=
    machine.within_of_check (by decide +kernel)
  exact ⟨s, ran, joined, appended, (stop_flushes_iff short ran joined few).mpr within⟩

/-- A line is appended while the back end writes, and then stop() is called. -/
theorem stop_loses_line :
    ∃ s : AsyncLogging kLargeBuffer, machine.run start
        ([.append ['a']] ++ List.replicate 4 (.thread []) ++ [.append ['b'], .stop] ++
          List.replicate 3 (.thread []) ++ [.join]) = some s ∧
      s.joined = true ∧ s.appended = [['a'], ['b']] ∧ s.atStop = some 2 ∧
      s.backEnd.output = ['a'] := by
  have shown : (machine.run (start : AsyncLogging kLargeBuffer)
      ([.append ['a']] ++ List.replicate 4 (.thread []) ++ [.append ['b'], .stop] ++
        List.replicate 3 (.thread []) ++ [.join])).map
      (fun s => (s.joined, s.appended, s.atStop, s.backEnd.output)) =
      some (true, [['a'], ['b']], some 2, ['a']) := by
    decide +kernel
  obtain ⟨s, ran, same⟩ := Option.map_eq_some_iff.mp shown
  simp only [Prod.mk.injEq] at same
  exact ⟨s, ran, same⟩

end AsyncLogging
end Muduo
