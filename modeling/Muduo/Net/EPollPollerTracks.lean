import Muduo.Net.Pollers

/-!
EPollPoller under the operations of Channel, from what one channel does to its slot.
A registered channel is kAdded when it has an interest and kDeleted when it has none.
-/
namespace Muduo
open Lib
namespace Pollers
variable {fd : Nat → Nat} {e : EPollPoller.State} {r : Registry} {c d : Nat}

structure EPollTracked (fd : Nat → Nat) (e : EPollPoller.State) (r : Registry) (c : Nat) : Prop where
  number : (e.objects c).fd_ = fd c
  events : (e.objects c).events_ = r.interest c
  synced : Channel.Synced (e.objects c) (e.slots (fd c))
  unknown : r.registered c = false → (e.objects c).index_ = EPollPoller.kNew
  added : r.registered c = true → r.interest c ≠ .kNoneEvent →
    (e.objects c).index_ = EPollPoller.kAdded
  deleted : r.registered c = true → r.interest c = .kNoneEvent →
    (e.objects c).index_ = EPollPoller.kDeleted

structure EPollTracks (fd : Nat → Nat) (e : EPollPoller.State) (r : Registry) : Prop where
  tracked : ∀ c, EPollTracked fd e r c
  others : ∀ f, (∀ c, fd c ≠ f) → (e.slots f).interest = none

theorem EPollTracks.watches_iff (tracks : EPollTracks fd e r) (f : Nat) (events : Events) :
    e.Watches f events ↔ r.Watches fd f events := by
  constructor
  · intro watched
    have somewhere : ∃ c, fd c = f := by
      by_contra nowhere
      have none := tracks.others f (fun c same => nowhere ⟨c, same⟩)
      cases none.symm.trans watched
    obtain ⟨c, rfl⟩ := somewhere
    have tracked := tracks.tracked c
    simp only [EPollPoller.State.Watches, tracked.synced.slot, Channel.slotOf] at watched
    split at watched
    case isTrue added =>
      rw [Option.some.injEq, tracked.events] at watched
      have known : r.registered c = true := by
        cases known : r.registered c with
        | true => rfl
        | false => exact absurd ((tracked.unknown known).symm.trans added) Channel.kNew_ne_kAdded
      refine ⟨c, rfl, known, watched, ?_⟩
      rintro rfl
      exact Channel.kDeleted_ne_kAdded ((tracked.deleted known watched).symm.trans added)
    case isFalse =>
      split at watched <;> cases watched
  · rintro ⟨c, rfl, known, rfl, interested⟩
    have tracked := tracks.tracked c
    simp [EPollPoller.State.Watches, tracked.synced.slot, Channel.slotOf,
      tracked.added known interested, tracked.events]

theorem epoll_apply_update {op : ChannelOp} (update : op ≠ .remove) :
    e.apply c op =
      (Channel.update
        { e.objects c with events_ := op.interest (e.objects c).events_ }
        (e.slots (e.objects c).fd_) >>= fun result => pure (e.place c result)) := by
  cases op with
  | remove => exact absurd rfl update
  | enableReading | disableReading | enableWriting | disableWriting | disableAll => rfl

theorem epoll_place {r' : Registry} {ch : Channel} {slot : Slot} (tracks : EPollTracks fd e r)
    (distinct : Function.Injective fd) (number : ch.fd_ = fd c)
    (interest : ∀ d, d ≠ c → r'.interest d = r.interest d)
    (registered : ∀ d, d ≠ c → r'.registered d = r.registered d)
    (mine : EPollTracked fd (e.place c (ch, slot)) r' c) : EPollTracks fd (e.place c (ch, slot)) r' := by
  constructor
  · intro d
    by_cases same : d = c
    · rw [same]
      exact mine
    · have tracked := tracks.tracked d
      have object : (e.place c (ch, slot)).objects d = e.objects d := Function.update_of_ne same _ _
      have place : (e.place c (ch, slot)).slots (fd d) = e.slots (fd d) := by
        apply Function.update_of_ne
        rw [number]
        exact fun fds => same (distinct fds)
      constructor
      · rw [object]
        exact tracked.number
      · rw [object, interest d same]
        exact tracked.events
      · rw [object, place]
        exact tracked.synced
      · rw [object, registered d same]
        exact tracked.unknown
      · rw [object, registered d same, interest d same]
        exact tracked.added
      · rw [object, registered d same, interest d same]
        exact tracked.deleted
  · intro f nowhere
    have place : (e.place c (ch, slot)).slots f = e.slots f := by
      apply Function.update_of_ne
      rw [number]
      exact fun fds => nowhere c fds.symm
    rw [place]
    exact tracks.others f nowhere

theorem EPollTracked.synced_here (tracked : EPollTracked fd e r c) :
    Channel.Synced (e.objects c) (e.slots (e.objects c).fd_) := by
  rw [tracked.number]
  exact tracked.synced

theorem epoll_update (tracks : EPollTracks fd e r) (distinct : Function.Injective fd)
    {op : ChannelOp} (update : op ≠ .remove)
    (plain : op.interest (r.interest c) = .kNoneEvent →
      r.registered c = true ∧ r.interest c ≠ .kNoneEvent) :
    ∃ e', e.apply c op = .ok e' ∧ EPollTracks fd e' (r.updated c (op.interest (r.interest c))) := by
  have tracked := tracks.tracked c
  rw [epoll_apply_update update, tracked.events,
    Channel.update_spec tracked.synced_here, ok_bind]
  refine ⟨_, rfl, epoll_place tracks distinct tracked.number ?_ ?_ ?_⟩
  · exact fun d apart => Function.update_of_ne apart _ _
  · exact fun d apart => Function.update_of_ne apart _ _
  · generalize op.interest (r.interest c) = events at plain
    have index : events ≠ .kNoneEvent →
        ((e.objects c).updated events).index_ = EPollPoller.kAdded := by
      intro interested
      simp [Channel.updated, interested]
    have index' : events = .kNoneEvent →
        ((e.objects c).updated events).index_ = EPollPoller.kDeleted := by
      intro none
      obtain ⟨known, interested⟩ := plain none
      simp [Channel.updated, none, tracked.added known interested]
    have object : (e.place c ((e.objects c).updated events,
        ((e.objects c).updated events).slotOf)).objects c = (e.objects c).updated events :=
      Function.update_self _ _ _
    constructor
    · rw [object]
      exact tracked.number
    · rw [object]
      simp [Registry.updated, Channel.updated]
    · rw [object]
      have place : (e.place c ((e.objects c).updated events,
          ((e.objects c).updated events).slotOf)).slots (fd c) =
          ((e.objects c).updated events).slotOf := by
        rw [← tracked.number]
        exact Function.update_self _ _ _
      rw [place]
      exact Channel.synced_updated _ _
    · intro unknown
      simp [Registry.updated] at unknown
    · intro _ interested
      rw [object]
      exact index (by simpa [Registry.updated] using interested)
    · intro _ none
      rw [object]
      exact index' (by simpa [Registry.updated] using none)

theorem epoll_remove (tracks : EPollTracks fd e r) (distinct : Function.Injective fd)
    (known : r.registered c = true) (none : r.interest c = .kNoneEvent) :
    ∃ e', e.apply c .remove = .ok e' ∧ EPollTracks fd e' (r.without c) := by
  have tracked := tracks.tracked c
  have deleted := tracked.deleted known none
  have may : Channel.LoopView.MayRemove ⟨false, false, false⟩ := by
    intro handling
    cases handling
  have removed := Channel.remove_spec tracked.synced_here (tracked.events.trans none)
    (by rw [deleted]; exact Channel.kNew_ne_kDeleted.symm) may
  have ran : e.apply c .remove = .ok (e.place c
      ({ e.objects c with addedToLoop_ := false, index_ := EPollPoller.kNew },
        ⟨Option.none, Option.none⟩)) := by
    simp only [EPollPoller.State.apply, removed, ok_bind, pure_eq_ok]
  refine ⟨_, ran, epoll_place tracks distinct tracked.number ?_ ?_ ?_⟩
  · exact fun d _ => rfl
  · exact fun d apart => Function.update_of_ne apart _ _
  · constructor
    · simpa [EPollPoller.State.place] using tracked.number
    · simpa [EPollPoller.State.place, Registry.without] using tracked.events
    · simp only [EPollPoller.State.place, Function.update_self, tracked.number]
      exact ⟨Or.inl rfl, by simp [Channel.slotOf, Channel.kNew_ne_kAdded, Channel.kNew_ne_kDeleted]⟩
    · intro _
      simp [EPollPoller.State.place]
    · intro known'
      simp [Registry.without] at known'
    · intro known'
      simp [Registry.without] at known'

end Pollers
end Muduo
