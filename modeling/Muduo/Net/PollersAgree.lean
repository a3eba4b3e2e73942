import Muduo.Net.EPollPollerTracks
import Muduo.Net.PollPollerTracks

/-!
When the two pollers can stand for each other: the invariants of both are kept by
every plain operation, and any other operation is the end of the agreement.
-/
namespace Muduo
open Lib
namespace Pollers
variable {fd : Nat → Nat} {p : PollPoller} {e : EPollPoller.State} {r : Registry} {c : Nat}

def Tracking (fd : Nat → Nat) (s : State) : Prop :=
  ∃ p e, s.poll = .ok p ∧ s.epoll = .ok e ∧ PollTracks fd p s.registry ∧
    EPollTracks fd e s.registry

variable {s t : State} {l : Nat × ChannelOp}

theorem tracking_init (fd : Nat → Nat) : Tracking fd (init fd) := by
  refine ⟨_, _, rfl, rfl, pollTracks_init fd, ⟨?_, ?_⟩⟩
  · intro c
    constructor
    · rfl
    · rfl
    · exact ⟨Or.inl rfl, rfl⟩
    · intro _
      rfl
    · intro known
      cases known
    · intro known
      cases known
  · intro f _
    rfl

theorem agree_of_tracking (tracking : Tracking fd s) : Agree fd s := by
  obtain ⟨p, e, poll, epoll, tracks, tracks'⟩ := tracking
  exact ⟨p, e, poll, epoll, tracks.watches_iff, tracks'.watches_iff⟩

theorem step_eq (taken : step s l = some t) :
    (l.2 = .remove → s.registry.registered l.1 = true ∧ s.registry.interest l.1 = .kNoneEvent) ∧
      t = { poll := s.poll >>= fun p => p.apply l.1 l.2
            epoll := s.epoll >>= fun e => e.apply l.1 l.2
            registry := s.registry.after l.1 l.2 } := by
  simp only [step, Option.ite_none_right_eq_some, Option.some.injEq] at taken
  exact ⟨taken.1, taken.2.symm⟩

theorem poll_apply_update {op : ChannelOp} (tracks : PollTracks fd p r) (update : op ≠ .remove) :
    p.apply c op = p.update c (op.interest (r.interest c)) := by
  rw [PollPoller.apply, if_neg update, (tracks.tracked c).events]

theorem tracking_step (distinct : Function.Injective fd) (tracking : Tracking fd s)
    (plain : Plain s l) (taken : step s l = some t) : Tracking fd t := by
  obtain ⟨p, e, poll, epoll, tracks, tracks'⟩ := tracking
  obtain ⟨legal, rfl⟩ := step_eq taken
  obtain ⟨c, op⟩ := l
  by_cases update : op = .remove
  · subst update
    obtain ⟨known, none⟩ := legal rfl
    obtain ⟨p', ran, still⟩ := poll_remove tracks distinct known none
    obtain ⟨e', ran', still'⟩ := epoll_remove tracks' distinct known none
    exact ⟨p', e', by rw [poll]; exact ran, by rw [epoll]; exact ran', still, still'⟩
  · obtain ⟨kept, interested⟩ := plain update
    obtain ⟨e', ran', still'⟩ := epoll_update tracks' distinct update interested
    have registry : s.registry.after c op = s.registry.updated c (op.interest (s.registry.interest c)) :=
      if_neg update
    have polled : ∃ p', p.update c (op.interest (s.registry.interest c)) = .ok p' ∧
        PollTracks fd p' (s.registry.updated c (op.interest (s.registry.interest c))) := by
      cases known : s.registry.registered c with
      | true => exact poll_update_known tracks distinct known _
      | false =>
        refine poll_update_new tracks distinct known kept ?_
        intro none
        cases known.symm.trans (interested none).1
    obtain ⟨p', ran, still⟩ := polled
    refine ⟨p', e', ?_, by rw [epoll]; exact ran', by rw [registry]; exact still,
      by rw [registry]; exact still'⟩
    rw [poll]
    exact (poll_apply_update tracks update).trans ran

theorem disagree_step (tracking : Tracking fd s)
    (odd : ¬Plain s l) (taken : step s l = some t) : ¬Agree fd t := by
  obtain ⟨p, e, poll, epoll, tracks, tracks'⟩ := tracking
  obtain ⟨-, rfl⟩ := step_eq taken
  obtain ⟨c, op⟩ := l
  rintro ⟨p', e', ran, ran', watches, watches'⟩
  have update : op ≠ .remove := by
    rintro rfl
    exact odd (fun other => absurd rfl other)
  have tracked := tracks.tracked c
  have tracked' := tracks'.tracked c
  rw [poll, ok_bind, poll_apply_update tracks update] at ran
  rw [epoll, ok_bind, epoll_apply_update update, tracked'.events,
    Channel.update_spec tracked'.synced_here, ok_bind, pure_eq_ok, Except.ok.injEq] at ran'
  cases gone : s.registry.removed c with
  | true =>
    obtain ⟨unknown, index⟩ := tracked.stale gone
    have absent : p.channels_ (p.objects c).fd_ = none := by
      rw [tracked.number]
      exact tracked.absent unknown
    have failed := PollPoller.updateChannel_removed
      (p := p.setObject c (asking p c (op.interest (s.registry.interest c)))) (c := c)
      (by rw [setObject_asking]; exact index) (by rw [setObject_asking]; exact absent)
    cases failed.symm.trans ran
  | false =>
    have none : op.interest (s.registry.interest c) = .kNoneEvent := by
      by_contra interested
      exact odd (fun _ => ⟨gone, fun none => absurd none interested⟩)
    rw [none] at ran ran'
    cases known : s.registry.registered c with
    | false =>
      have absent : p.channels_ (p.objects c).fd_ = Option.none := by
        rw [tracked.number]
        exact tracked.absent known
      have added := PollPoller.updateChannel_new (p := p.setObject c (asking p c .kNoneEvent))
        (c := c) (by rw [setObject_asking]; exact tracked.fresh known gone)
        (by rw [setObject_asking]; exact absent)
      obtain rfl := Except.ok.inj (added.symm.trans ran)
      have watched := (watches (p.objects c).fd_ .kNoneEvent).mp
        ⟨_, List.mem_append_right _ (List.mem_singleton.mpr rfl), by
          rw [setObject_asking]; rfl, by rw [setObject_asking]; rfl⟩
      obtain ⟨d, -, -, -, interested⟩ := watched
      exact interested rfl
    | true =>
      have idle : s.registry.interest c = .kNoneEvent := by
        by_contra interested
        exact odd (fun _ => ⟨gone, fun _ => ⟨known, interested⟩⟩)
      have deleted := tracked'.deleted known idle
      have index : ((e.objects c).updated .kNoneEvent).index_ = EPollPoller.kAdded := by
        simp [Channel.updated, deleted, Channel.kDeleted_ne_kAdded]
      have place : e'.slots (e.objects c).fd_ = ((e.objects c).updated .kNoneEvent).slotOf := by
        rw [← ran']
        exact Function.update_self _ _ _
      have watched := (watches' (e.objects c).fd_ .kNoneEvent).mp (by
        rw [EPollPoller.State.Watches, place, Channel.slotOf, if_pos index]
        rfl)
      obtain ⟨d, -, -, -, interested⟩ := watched
      exact interested rfl

/-- In every sequence of operations, PollPoller and EPollPoller both run without a
    failed assertion and watch exactly the registered interest after every step,
    exactly when every operation is plain. -/
theorem pollers_agree_iff {fd : Nat → Nat} (distinct : Function.Injective fd)
    {ls : List (Nat × ChannelOp)} (ran : machine.run (init fd) ls = some s) :
    machine.Always (Agree fd) (init fd) ls ↔ machine.Within Plain (init fd) ls := by
  have start := tracking_init fd
  refine machine.always_iff_within Plain (Tracking fd) (Agree fd) ?_ ?_ start
    (agree_of_tracking start) ran
  · intro s l t tracking _ plain taken
    have still := tracking_step distinct tracking plain taken
    exact ⟨still, agree_of_tracking still⟩
  · intro s l t tracking _ odd taken
    exact disagree_step tracking odd taken

/-- Three channels; the second is removed from the middle of pollfds_ while the last
    one has lost its interest and gets it back. -/
def plainRun : List (Nat × ChannelOp) :=
  [(0, .enableReading), (1, .enableWriting), (2, .enableReading), (1, .disableAll),
    (2, .disableReading), (1, .remove), (2, .enableWriting), (0, .disableAll), (0, .remove)]

theorem pollers_agree_on_plainRun :
    ∃ s, machine.run (init id) plainRun = some s ∧ s.registry.registered 2 = true ∧
      machine.Always (Agree id) (init id) plainRun := by
  have outcome : (machine.run (init id) plainRun).map (fun s => s.registry.registered 2) =
      some true := by decide +kernel
  have within : machine.checkWithin Plain (init id) plainRun = true := by decide +kernel
  obtain ⟨s, reached, known⟩ := Option.map_eq_some_iff.mp outcome
  exact ⟨s, reached, known,
    (pollers_agree_iff Function.injective_id reached).mpr (machine.within_of_check within)⟩

def failure {α : Type} : Checked α → String
  | .ok _ => ""
  | .error e => e

theorem not_agree_of_failure {e : String} (some_text : e ≠ "") (failed : failure s.poll = e) :
    ¬Agree fd s := by
  rintro ⟨p, -, poll, -⟩
  rw [poll] at failed
  exact some_text failed.symm

def emptyMask (s : State) : Bool :=
  s.epoll.toOption.any fun e => (e.slots 0).interest = some .kNoneEvent

theorem not_agree_of_emptyMask (watched : emptyMask s = true) : ¬Agree fd s := by
  rintro ⟨-, e, -, epoll, -, watches⟩
  rw [emptyMask, epoll] at watched
  have here : (e.slots 0).interest = some .kNoneEvent := by
    simpa [Except.toOption] using watched
  obtain ⟨c, -, -, -, interested⟩ := (watches 0 .kNoneEvent).mp here
  exact interested rfl

/-- A channel that is disabled before it was ever enabled and then removed, as
    ~Acceptor does without listen(); one that is used again after its removal; and one
    that is disabled twice. -/
theorem pollers_disagree :
    (∃ s, machine.run (init id) [(0, .disableAll), (0, .remove)] = some s ∧ ¬Agree id s ∧
      failure s.poll = "pfd.fd == -channel->fd()-1 && pfd.events == channel->events()") ∧
    (∃ s, machine.run (init id)
        [(0, .enableReading), (0, .disableAll), (0, .remove), (0, .enableReading)] = some s ∧
      ¬Agree id s ∧ failure s.poll = "channels_.find(channel->fd()) != channels_.end()") ∧
    ∃ s, machine.run (init id) [(0, .enableReading), (0, .disableAll), (0, .disableAll)] = some s ∧
      ¬Agree id s ∧ emptyMask s = true := by
  have unused : (machine.run (init id) [(0, .disableAll), (0, .remove)]).map
      (fun s => failure s.poll) =
      some "pfd.fd == -channel->fd()-1 && pfd.events == channel->events()" := by decide +kernel
  have again : (machine.run (init id)
      [(0, .enableReading), (0, .disableAll), (0, .remove), (0, .enableReading)]).map
      (fun s => failure s.poll) =
      some "channels_.find(channel->fd()) != channels_.end()" := by decide +kernel
  have twice : (machine.run (init id)
      [(0, .enableReading), (0, .disableAll), (0, .disableAll)]).map emptyMask = some true := by
    decide +kernel
  refine ⟨?_, ?_, ?_⟩
  · obtain ⟨s, reached, failed⟩ := Option.map_eq_some_iff.mp unused
    exact ⟨s, reached, not_agree_of_failure (by decide) failed, failed⟩
  · obtain ⟨s, reached, failed⟩ := Option.map_eq_some_iff.mp again
    exact ⟨s, reached, not_agree_of_failure (by decide) failed, failed⟩
  · obtain ⟨s, reached, watched⟩ := Option.map_eq_some_iff.mp twice
    exact ⟨s, reached, not_agree_of_emptyMask watched, watched⟩

end Pollers
end Muduo
