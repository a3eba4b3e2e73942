import Muduo.Net.Pollers

/-!
PollPoller under the operations of Channel. The invariant ties each channel's index_
to its entry of pollfds_ and to channels_; it is stated channel by channel, so that an
operation needs an argument only for the channels it touches.
-/
namespace Muduo
open Lib
namespace Pollers
variable {fd : Nat → Nat} {p : PollPoller} {r : Registry} {c d i : Nat}

structure Tracked (fd : Nat → Nat) (p : PollPoller) (r : Registry) (c : Nat) : Prop where
  number : (p.objects c).fd_ = fd c
  events : (p.objects c).events_ = r.interest c
  known : r.registered c = true → p.channels_ (fd c) = some c
  entry : r.registered c = true → ∃ i : Nat, (p.objects c).index_ = i ∧
    p.pollfds_[i]? = some (PollPoller.pollFd (p.objects c))
  absent : r.registered c = false → p.channels_ (fd c) = none
  fresh : r.registered c = false → r.removed c = false → (p.objects c).index_ = -1
  stale : r.removed c = true → r.registered c = false ∧ 0 ≤ (p.objects c).index_

structure PollTracks (fd : Nat → Nat) (p : PollPoller) (r : Registry) : Prop where
  tracked : ∀ c, Tracked fd p r c
  owner : ∀ i < p.pollfds_.length, ∃ c, r.registered c = true ∧ (p.objects c).index_ = i

theorem pollTracks_init (fd : Nat → Nat) :
    PollTracks fd ⟨fun c => .new c (fd c), fun _ => none, []⟩ .noChannels := by
  refine ⟨?_, ?_⟩
  · intro c
    constructor
    · rfl
    · rfl
    · intro known
      cases known
    · intro known
      cases known
    · intro _
      rfl
    · intro _ _
      rfl
    · intro gone
      cases gone
  · intro i inside
    cases inside

theorem pollFd_fd {ch ch' : Channel} (same : PollPoller.pollFd ch = PollPoller.pollFd ch') :
    ch.fd_ = ch'.fd_ := by
  simp only [PollPoller.pollFd, PollFd.mk.injEq] at same
  obtain ⟨shown, events, -⟩ := same
  simp only [Channel.isNoneEvent, events] at shown
  split at shown <;> omega

theorem Tracked.entry_at (tracked : Tracked fd p r c) (known : r.registered c = true)
    (index : (p.objects c).index_ = i) :
    p.pollfds_[i]? = some (PollPoller.pollFd (p.objects c)) := by
  obtain ⟨j, same, entry⟩ := tracked.entry known
  have : i = j := by omega
  rw [this]
  exact entry

theorem Tracked.place (tracked : Tracked fd p r c) (known : r.registered c = true) :
    p.channels_ (p.objects c).fd_ = some c := by
  rw [tracked.number]
  exact tracked.known known

theorem Tracked.frame {p' : PollPoller} {r' : Registry} (tracked : Tracked fd p r c)
    (object : p'.objects c = p.objects c) (channel : p'.channels_ (fd c) = p.channels_ (fd c))
    (interest : r'.interest c = r.interest c) (registered : r'.registered c = r.registered c)
    (removed : r'.removed c = r.removed c)
    (place : ∀ i : Nat, r.registered c = true → (p.objects c).index_ = i →
      p'.pollfds_[i]? = p.pollfds_[i]?) : Tracked fd p' r' c := by
  constructor
  · rw [object]
    exact tracked.number
  · rw [object, interest]
    exact tracked.events
  · rw [registered, channel]
    exact tracked.known
  · rw [registered, object]
    intro known
    obtain ⟨i, index, entry⟩ := tracked.entry known
    exact ⟨i, index, (place i known index).trans entry⟩
  · rw [registered, channel]
    exact tracked.absent
  · rw [registered, removed, object]
    exact tracked.fresh
  · rw [registered, removed, object]
    exact tracked.stale

theorem PollTracks.index_inj (tracks : PollTracks fd p r) (distinct : Function.Injective fd)
    (known : r.registered c = true) (known' : r.registered d = true)
    (same : (p.objects c).index_ = (p.objects d).index_) : c = d := by
  obtain ⟨i, index, entry⟩ := (tracks.tracked c).entry known
  have entry' := (tracks.tracked d).entry_at known' (same.symm.trans index)
  have fds := pollFd_fd (Option.some.inj (entry.symm.trans entry'))
  rw [(tracks.tracked c).number, (tracks.tracked d).number] at fds
  exact distinct fds

theorem PollTracks.watches_iff (tracks : PollTracks fd p r) (f : Nat) (events : Events) :
    p.Watches f events ↔ r.Watches fd f events := by
  constructor
  · rintro ⟨pfd, member, shown, interest⟩
    obtain ⟨i, bound, rfl⟩ := List.mem_iff_getElem.mp member
    obtain ⟨c, known, index⟩ := tracks.owner i bound
    have entry := (tracks.tracked c).entry_at known index
    rw [List.getElem?_eq_getElem bound, Option.some.injEq] at entry
    rw [entry] at shown interest
    simp only [PollPoller.pollFd] at shown interest
    split at shown
    case isTrue => omega
    case isFalse interested =>
      refine ⟨c, ?_, known, ?_, ?_⟩
      · rw [← (tracks.tracked c).number]
        omega
      · rw [← (tracks.tracked c).events, interest]
      · rw [← interest]
        exact interested
  · rintro ⟨c, rfl, known, rfl, interested⟩
    obtain ⟨i, -, entry⟩ := (tracks.tracked c).entry known
    refine ⟨_, List.mem_of_getElem? entry, ?_, (tracks.tracked c).events⟩
    have shown : ¬(p.objects c).isNoneEvent := by
      rw [Channel.isNoneEvent, (tracks.tracked c).events]
      exact interested
    simp only [PollPoller.pollFd, shown, if_false, (tracks.tracked c).number]

def asking (p : PollPoller) (c : Nat) (events : Events) : Channel :=
  { p.objects c with events_ := events, addedToLoop_ := true }

theorem setObject_asking (events : Events) :
    (p.setObject c (asking p c events)).objects c = asking p c events :=
  Function.update_self _ _ _

theorem poll_update_known (tracks : PollTracks fd p r) (distinct : Function.Injective fd)
    (known : r.registered c = true) (events : Events) :
    ∃ p', p.update c events = .ok p' ∧ PollTracks fd p' (r.updated c events) := by
  have tracked := tracks.tracked c
  obtain ⟨i, index, entry⟩ := tracked.entry known
  obtain ⟨bound, -⟩ := List.getElem?_eq_some_iff.mp entry
  have mine : (PollPoller.pollFd (p.objects c)).fd = (p.objects c).fd_ ∨
      (PollPoller.pollFd (p.objects c)).fd = -(p.objects c).fd_ - 1 := by
    simp only [PollPoller.pollFd]
    split
    · exact Or.inr rfl
    · exact Or.inl rfl
  have ran := PollPoller.updateChannel_known (p := p.setObject c (asking p c events)) (c := c)
    (by rw [setObject_asking]; exact index) (by rw [setObject_asking]; exact tracked.place known) entry
    (by rw [setObject_asking]; exact mine)
  rw [setObject_asking] at ran
  refine ⟨_, ran, ?_, ?_⟩
  · intro d
    by_cases same : d = c
    · subst same
      simp only [PollPoller.setObject]
      constructor
      · simpa [asking] using tracked.number
      · simp [asking, Registry.updated]
      · intro _
        exact tracked.known known
      · intro _
        refine ⟨i, by simpa [asking] using index, ?_⟩
        simp only [Function.update_self]
        exact List.getElem?_set_self bound
      · intro unknown
        simp [Registry.updated] at unknown
      · intro unknown
        simp [Registry.updated] at unknown
      · intro gone
        cases known.symm.trans (tracked.stale gone).1
    · refine (tracks.tracked d).frame (Function.update_of_ne same _ _) rfl
        (Function.update_of_ne same _ _) (Function.update_of_ne same _ _) rfl ?_
      intro j known' index'
      apply List.getElem?_set_ne
      rintro rfl
      exact same (tracks.index_inj distinct known' known (index'.trans index.symm))
  · intro j inside
    simp only [PollPoller.setObject, List.length_set] at inside
    obtain ⟨d, old, index'⟩ := tracks.owner j inside
    by_cases same : d = c
    · subst same
      exact ⟨d, by simp [Registry.updated], by simpa [PollPoller.setObject, asking] using index'⟩
    · exact ⟨d, by simpa [Registry.updated, same] using old, by simpa [PollPoller.setObject, same] using index'⟩

theorem poll_update_new (tracks : PollTracks fd p r) (distinct : Function.Injective fd)
    (unknown : r.registered c = false) (kept : r.removed c = false) {events : Events}
    (interested : events ≠ .kNoneEvent) :
    ∃ p', p.update c events = .ok p' ∧ PollTracks fd p' (r.updated c events) := by
  have tracked := tracks.tracked c
  have fresh := tracked.fresh unknown kept
  have absent : p.channels_ (p.objects c).fd_ = none := by
    rw [tracked.number]
    exact tracked.absent unknown
  have ran := PollPoller.updateChannel_new (p := p.setObject c (asking p c events)) (c := c)
    (by rw [setObject_asking]; exact fresh) (by rw [setObject_asking]; exact absent)
  rw [setObject_asking] at ran
  refine ⟨_, ran, ?_, ?_⟩
  · intro d
    by_cases same : d = c
    · subst same
      simp only [PollPoller.setObject]
      have shown : ¬(asking p d events).isNoneEvent := interested
      constructor
      · simpa [asking, Channel.set_index] using tracked.number
      · simp [asking, Registry.updated, Channel.set_index]
      · intro _
        simp [asking, tracked.number]
      · intro _
        refine ⟨p.pollfds_.length, by simp [Channel.set_index], ?_⟩
        simp [PollPoller.pollFd, Channel.set_index, asking, Channel.isNoneEvent, interested]
      · intro unknown'
        simp [Registry.updated] at unknown'
      · intro unknown'
        simp [Registry.updated] at unknown'
      · intro gone
        cases kept.symm.trans gone
    · refine (tracks.tracked d).frame ?_ ?_ (Function.update_of_ne same _ _)
        (Function.update_of_ne same _ _) rfl ?_
      · simp [PollPoller.setObject, same]
      · apply Function.update_of_ne
        simp only [asking, tracked.number]
        exact fun fds => same (distinct fds)
      · intro j known' index'
        obtain ⟨bound, -⟩ := List.getElem?_eq_some_iff.mp ((tracks.tracked d).entry_at known' index')
        exact List.getElem?_append_left bound
  · intro j inside
    simp only [PollPoller.setObject, List.length_append, List.length_singleton] at inside
    by_cases last : j = p.pollfds_.length
    · exact ⟨c, by simp [Registry.updated], by simp [PollPoller.setObject, Channel.set_index, last]⟩
    · obtain ⟨d, old, index'⟩ := tracks.owner j (by omega)
      have same : d ≠ c := by
        rintro rfl
        cases unknown.symm.trans old
      exact ⟨d, by simpa [Registry.updated, same] using old, by simpa [PollPoller.setObject, same] using index'⟩

def leaving (p : PollPoller) (c : Nat) : Channel := { p.objects c with addedToLoop_ := false }

theorem setObject_leaving : (p.setObject c (leaving p c)).objects c = leaving p c :=
  Function.update_self _ _ _

theorem tracked_without {p' : PollPoller} (tracked : Tracked fd p r c)
    (index : (p.objects c).index_ = i) (object : p'.objects c = leaving p c)
    (channels : p'.channels_ = Function.update p.channels_ (fd c) none) :
    Tracked fd p' (r.without c) c := by
  constructor
  · rw [object]
    exact tracked.number
  · rw [object]
    exact tracked.events
  · intro known
    simp [Registry.without] at known
  · intro known
    simp [Registry.without] at known
  · intro _
    simp [channels]
  · intro _ kept
    simp [Registry.without] at kept
  · intro _
    refine ⟨by simp [Registry.without], ?_⟩
    rw [object]
    simp only [leaving, index]
    omega

theorem remove_eq (idle : (p.objects c).isNoneEvent) :
    p.remove c = (p.setObject c (leaving p c)).removeChannel c := by
  simp only [PollPoller.remove, assertThat_of_true idle, ok_bind]
  rfl

theorem channel_kept (distinct : Function.Injective fd) (tracked : Tracked fd p r c)
    (apart : d ≠ c) :
    Function.update p.channels_ (leaving p c).fd_ none (fd d) = p.channels_ (fd d) := by
  apply Function.update_of_ne
  simp only [leaving, tracked.number]
  exact fun fds => apart (distinct fds)

theorem poll_remove_last (tracks : PollTracks fd p r) (distinct : Function.Injective fd)
    (known : r.registered c = true) (idle : (p.objects c).isNoneEvent)
    (index : (p.objects c).index_ = i) (last : i + 1 = p.pollfds_.length) :
    ∃ p', p.remove c = .ok p' ∧ PollTracks fd p' (r.without c) := by
  have tracked := tracks.tracked c
  have ran := PollPoller.removeChannel_last (p := p.setObject c (leaving p c)) (c := c)
    (by rw [setObject_leaving]; exact index)
    (by rw [setObject_leaving]; exact tracked.place known)
    (by rw [setObject_leaving]; exact idle)
    (by rw [setObject_leaving]; exact tracked.entry_at known index) last
  rw [setObject_leaving] at ran
  refine ⟨_, (remove_eq idle).trans ran, ?_, ?_⟩
  · intro d
    by_cases same : d = c
    · subst same
      refine tracked_without tracked index setObject_leaving ?_
      simp only [leaving, tracked.number]
      rfl
    · refine (tracks.tracked d).frame (Function.update_of_ne same _ _)
        (channel_kept distinct tracked same) rfl (Function.update_of_ne same _ _)
        (Function.update_of_ne same _ _) ?_
      intro j known' index'
      have apart : j ≠ i := by
        rintro rfl
        exact same (tracks.index_inj distinct known' known (index'.trans index.symm))
      obtain ⟨bound, -⟩ := List.getElem?_eq_some_iff.mp ((tracks.tracked d).entry_at known' index')
      show p.pollfds_.dropLast[j]? = _
      rw [List.getElem?_dropLast, if_pos (by omega)]
  · intro j inside
    have inside : j < p.pollfds_.length - 1 := by simpa [PollPoller.setObject] using inside
    obtain ⟨d, old, index'⟩ := tracks.owner j (by omega)
    have same : d ≠ c := by
      rintro rfl
      omega
    exact ⟨d, by simpa [Registry.without, same] using old, by simpa [PollPoller.setObject, same] using index'⟩

theorem poll_remove_middle {last : Nat} (tracks : PollTracks fd p r)
    (distinct : Function.Injective fd) (known : r.registered c = true)
    (idle : (p.objects c).isNoneEvent) (index : (p.objects c).index_ = i)
    (size : p.pollfds_.length = last + 1) (before : i < last) :
    ∃ p', p.remove c = .ok p' ∧ PollTracks fd p' (r.without c) := by
  have tracked := tracks.tracked c
  obtain ⟨d, known', index'⟩ := tracks.owner last (by omega)
  have tracked' := tracks.tracked d
  have apart : d ≠ c := by
    rintro rfl
    omega
  have other : (p.setObject c (leaving p c)).objects d = p.objects d :=
    Function.update_of_ne apart _ _
  have fds : (p.objects d).fd_ ≠ (leaving p c).fd_ := by
    simp only [leaving, tracked.number, tracked'.number]
    exact fun same => apart (distinct same)
  have back := tracked'.entry_at known' index'
  have ran := PollPoller.removeChannel_middle (p := p.setObject c (leaving p c)) (c := c) (d := d)
    (by rw [setObject_leaving]; exact index)
    (by rw [setObject_leaving]; exact tracked.place known)
    (by rw [setObject_leaving]; exact idle)
    (by rw [setObject_leaving]; exact tracked.entry_at known index) size before
    (by rw [other]; exact tracked'.place known') (by rw [setObject_leaving, other]; exact fds)
    (by rw [other]; exact back)
  rw [setObject_leaving, other] at ran
  refine ⟨_, (remove_eq idle).trans ran, ?_, ?_⟩
  · intro k
    by_cases removed : k = c
    · subst removed
      refine tracked_without tracked index ?_ ?_
      · simp only [Function.update_of_ne apart.symm]
        exact setObject_leaving
      · simp only [leaving, tracked.number]
        rfl
    · by_cases moved : k = d
      · subst moved
        have old : (r.without c).registered k = true := by simpa [Registry.without, apart] using known'
        constructor
        · simpa [Channel.set_index] using tracked'.number
        · simpa [Channel.set_index, Registry.without] using tracked'.events
        · intro _
          exact (channel_kept distinct tracked apart).trans (tracked'.known known')
        · intro _
          refine ⟨i, by simp [Channel.set_index], ?_⟩
          simp only [Function.update_self]
          show (iterSwap p.pollfds_ i last).dropLast[i]? = _
          rw [getElem?_dropLast_iterSwap size before, if_pos rfl]
          exact back
        · intro unknown
          cases old.symm.trans unknown
        · intro unknown
          cases old.symm.trans unknown
        · intro gone
          simp only [Registry.without, Function.update_of_ne apart] at gone
          cases known'.symm.trans (tracked'.stale gone).1
      · refine (tracks.tracked k).frame ?_ (channel_kept distinct tracked removed) rfl
          (Function.update_of_ne removed _ _) (Function.update_of_ne removed _ _) ?_
        · simp [PollPoller.setObject, removed, moved]
        · intro j known'' index''
          have elsewhere : j ≠ i := by
            rintro rfl
            exact removed (tracks.index_inj distinct known'' known (index''.trans index.symm))
          have not_last : j ≠ last := by
            rintro rfl
            exact moved (tracks.index_inj distinct known'' known' (index''.trans index'.symm))
          obtain ⟨bound, -⟩ :=
            List.getElem?_eq_some_iff.mp ((tracks.tracked k).entry_at known'' index'')
          show (iterSwap p.pollfds_ i last).dropLast[j]? = _
          rw [getElem?_dropLast_iterSwap size before, if_neg elsewhere, if_pos (by omega)]
  · intro j inside
    have inside : j < (iterSwap p.pollfds_ i last).dropLast.length := inside
    rw [length_dropLast_iterSwap size] at inside
    by_cases free : j = i
    · exact ⟨d, by simpa [Registry.without, apart] using known', by simp [Channel.set_index, free]⟩
    · obtain ⟨k, old, index''⟩ := tracks.owner j (by omega)
      have removed : k ≠ c := by
        rintro rfl
        omega
      have moved : k ≠ d := by
        rintro rfl
        omega
      exact ⟨k, by simpa [Registry.without, removed] using old,
        by simpa [PollPoller.setObject, removed, moved] using index''⟩

theorem poll_remove (tracks : PollTracks fd p r) (distinct : Function.Injective fd)
    (known : r.registered c = true) (none : r.interest c = .kNoneEvent) :
    ∃ p', p.remove c = .ok p' ∧ PollTracks fd p' (r.without c) := by
  have tracked := tracks.tracked c
  obtain ⟨i, index, entry⟩ := tracked.entry known
  obtain ⟨bound, -⟩ := List.getElem?_eq_some_iff.mp entry
  have idle : (p.objects c).isNoneEvent := tracked.events.trans none
  by_cases last : i + 1 = p.pollfds_.length
  · exact poll_remove_last tracks distinct known idle index last
  · obtain ⟨end_, size⟩ : ∃ end_, p.pollfds_.length = end_ + 1 := ⟨p.pollfds_.length - 1, by omega⟩
    exact poll_remove_middle tracks distinct known idle index size (by omega)

end Pollers
end Muduo
