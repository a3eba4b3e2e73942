import Muduo.Net.TimerQueue

/-!
Who owns a Timer. The two sets hold the same Timers under different keys; a Timer
outside them is in the batch of handleRead or is fresh, on its way to
addTimerInLoop. The lemmas below move one Timer between these places, or make and
delete one; the functions of TimerQueue.cc are made of such moves.
-/
namespace Muduo
open Lib
namespace TimerQueue

def Live (q : TimerQueue) (id : TimerId) : Prop :=
  ∃ t, q.heap id.timer_ = some t ∧ t.sequence_ = id.sequence_

structure Owned (q : TimerQueue) (batch fresh : List Nat) : Prop where
  entries : ∀ e, e ∈ q.timers_ ↔
    ∃ t, q.heap e.timer = some t ∧ t.expiration_ = e.when_ ∧ ⟨e.timer, t.sequence_⟩ ∈ q.activeTimers_
  active : ∀ id ∈ q.activeTimers_, q.Live id
  sizes : q.timers_.size = q.activeTimers_.size
  addressed : ∀ a t, q.heap a = some t → a < uintptrMax ∧ t.sequence_ ≤ q.numCreated
  distinct : (batch ++ fresh).Nodup
  apart : ∀ a ∈ batch ++ fresh, ∃ t, q.heap a = some t ∧ ⟨a, t.sequence_⟩ ∉ q.activeTimers_
  gone : ∀ id, .deleted id ∈ q.journal → ¬q.Live id ∧ id.sequence_ ≤ q.numCreated
  once : ∀ id, q.journal.count (.deleted id) ≤ 1
  held : ∀ id, .inserted id ∈ q.journal →
    .deleted id ∈ q.journal ∨ q.Live id ∧ (id ∈ q.activeTimers_ ∨ id.timer_ ∈ batch)

variable {q q' : TimerQueue} {batch fresh : List Nat} {a : Nat} {t : Timer} {id : TimerId}

theorem live_iff (here : q.heap id.timer_ = some t) : q.Live id ↔ t.sequence_ = id.sequence_ := by
  simp [Live, here]

theorem live_of_same (same : q'.heap = q.heap) : q'.Live id ↔ q.Live id := by
  simp [Live, same]

theorem live_unique {x : TimerId} (live : q.Live x) (live' : q.Live id)
    (place : x.timer_ = id.timer_) : x = id := by
  obtain ⟨t, here, number⟩ := live
  have number' := (live_iff (place ▸ here)).mp live'
  exact TimerId.key_injective (by simp [place, ← number, ← number'])

theorem live_update {c : Option Timer} (other : id.timer_ ≠ a) :
    Live { q with heap := Function.update q.heap a c } id ↔ q.Live id := by
  simp [Live, Function.update_of_ne other]

namespace Owned

theorem of_same (owned : Owned q batch fresh) (heap : q'.heap = q.heap)
    (created : q'.numCreated = q.numCreated) (timers : q'.timers_ = q.timers_)
    (active : q'.activeTimers_ = q.activeTimers_) (journal : q'.journal = q.journal) :
    Owned q' batch fresh := by
  obtain ⟨timers', active', calling, canceling, heap', created', alarm, journal'⟩ := q'
  simp only at heap created timers active journal
  subst heap created timers active journal
  exact ⟨owned.entries, owned.active, owned.sizes, owned.addressed, owned.distinct, owned.apart,
    owned.gone, owned.once, owned.held⟩

theorem perm {batch' fresh' : List Nat} (owned : Owned q batch fresh) (moved : batch.Perm batch')
    (moved' : fresh.Perm fresh') : Owned q batch' fresh' where
  entries := owned.entries
  active := owned.active
  sizes := owned.sizes
  addressed := owned.addressed
  distinct := (moved.append moved').nodup_iff.mp owned.distinct
  apart a member := owned.apart a ((moved.append moved').mem_iff.mpr member)
  gone := owned.gone
  once := owned.once
  held id inserted := by
    rw [← moved.mem_iff]
    exact owned.held id inserted

theorem note {m : Moment} (owned : Owned q batch fresh)
    (plain : ∀ id, m ≠ .inserted id ∧ m ≠ .deleted id) : Owned (q.note m) batch fresh where
  entries := owned.entries
  active := owned.active
  sizes := owned.sizes
  addressed := owned.addressed
  distinct := owned.distinct
  apart := owned.apart
  gone id deleted := by
    simp only [TimerQueue.note, List.mem_append, List.mem_singleton, (plain id).2.symm, or_false]
      at deleted
    exact owned.gone id deleted
  once id := by
    have absent : [m].count (.deleted id) = 0 :=
      List.count_eq_zero.mpr (by simpa using (plain id).2.symm)
    simp only [TimerQueue.note, List.count_append, absent, Nat.add_zero]
    exact owned.once id
  held id inserted := by
    simp only [TimerQueue.note, List.mem_append, List.mem_singleton, (plain id).1.symm,
      (plain id).2.symm, or_false] at inserted ⊢
    exact owned.held id inserted

theorem not_loose (owned : Owned q batch fresh) (active : id ∈ q.activeTimers_) :
    id.timer_ ∉ batch ++ fresh := by
  intro loose
  obtain ⟨t, here, absent⟩ := owned.apart _ loose
  have same := (live_iff here).mp (owned.active id active)
  rw [same] at absent
  exact absent active

theorem entry_of_active (owned : Owned q batch fresh) (active : id ∈ q.activeTimers_) :
    ∃ t, q.heap id.timer_ = some t ∧ t.sequence_ = id.sequence_ ∧
      ⟨t.expiration_, id.timer_⟩ ∈ q.timers_ := by
  obtain ⟨t, here, same⟩ := owned.active id active
  refine ⟨t, here, same, (owned.entries _).mpr ⟨t, here, rfl, ?_⟩⟩
  rw [same]
  exact active

theorem live_of_entry {e : Entry} (owned : Owned q batch fresh) (member : e ∈ q.timers_) :
    ∃ t, q.heap e.timer = some t ∧ t.expiration_ = e.when_ ∧
      ⟨e.timer, t.sequence_⟩ ∈ q.activeTimers_ :=
  (owned.entries e).mp member

theorem inactive_of_loose (owned : Owned q (a :: batch) fresh) :
    ∀ id ∈ q.activeTimers_, id.timer_ ≠ a := by
  rintro id member rfl
  exact owned.not_loose member List.mem_cons_self

theorem entries_update (owned : Owned q batch fresh)
    (inactive : ∀ id ∈ q.activeTimers_, id.timer_ ≠ a) (c : Option Timer) (e : Entry) :
    e ∈ q.timers_ ↔ ∃ t, Function.update q.heap a c e.timer = some t ∧ t.expiration_ = e.when_ ∧
      ⟨e.timer, t.sequence_⟩ ∈ q.activeTimers_ := by
  rw [owned.entries]
  by_cases here : e.timer = a
  · constructor
    · rintro ⟨t, -, -, member⟩
      exact absurd here (inactive _ member)
    · rintro ⟨t, -, -, member⟩
      exact absurd here (inactive _ member)
  · rw [Function.update_of_ne here]

theorem create {when_ : Int} {interval : Interval} (owned : Owned q batch fresh) (free : q.Free a) :
    Owned (q.create a when_ interval) batch (a :: fresh) := by
  obtain ⟨dead, small⟩ := free
  have live : ∀ id, id.timer_ ≠ a → ((q.create a when_ interval).Live id ↔ q.Live id) := by
    intro id other
    exact live_update other
  have occupied : ∀ b t, q.heap b = some t → b ≠ a := by
    rintro b t here rfl
    rw [dead] at here
    cases here
  have elsewhere : ∀ id, q.Live id → id.timer_ ≠ a := by
    rintro id ⟨t, here, -⟩
    exact occupied _ t here
  have old : ∀ b, b ≠ a → (q.create a when_ interval).heap b = q.heap b := by
    intro b other
    exact Function.update_of_ne other _ _
  refine ⟨owned.entries_update (fun id active => elsewhere id (owned.active id active)) _, ?_,
    owned.sizes, ?_, ?_, ?_, ?_, owned.once, ?_⟩
  · intro id active
    have was := owned.active id active
    exact (live id (elsewhere id was)).mpr was
  · intro b t here
    by_cases new : b = a
    · subst new
      simp only [TimerQueue.create, Function.update_self, Option.some.injEq] at here
      subst here
      exact ⟨small, le_refl _⟩
    · rw [old b new] at here
      obtain ⟨bound, number⟩ := owned.addressed b t here
      refine ⟨bound, ?_⟩
      simp only [TimerQueue.create]
      omega
  · have unused : a ∉ batch ++ fresh := by
      intro loose
      obtain ⟨t, here, -⟩ := owned.apart a loose
      exact occupied a t here rfl
    have nodup := List.nodup_cons.mpr ⟨unused, owned.distinct⟩
    exact List.perm_middle.nodup_iff.mpr nodup
  · intro b member
    by_cases new : b = a
    · subst new
      refine ⟨_, Function.update_self _ _ _, ?_⟩
      intro active
      exact elsewhere _ (owned.active _ active) rfl
    · have loose : b ∈ batch ++ fresh := by
        simp only [List.mem_append, List.mem_cons, new, false_or] at member ⊢
        exact member
      rw [old b new]
      exact owned.apart b loose
  · intro id deleted
    obtain ⟨dead_id, number⟩ := owned.gone id deleted
    refine ⟨?_, ?_⟩
    · by_cases new : id.timer_ = a
      · rintro ⟨t, here, same⟩
        simp only [TimerQueue.create, new, Function.update_self, Option.some.injEq] at here
        subst here
        simp only [Timer.new] at same
        omega
      · rw [live id new]
        exact dead_id
    · simp only [TimerQueue.create]
      omega
  · intro id inserted
    rcases owned.held id inserted with deleted | ⟨was, place⟩
    · exact Or.inl deleted
    · exact Or.inr ⟨(live id (elsewhere id was)).mpr was, place⟩

theorem adopt (owned : Owned q batch (a :: fresh)) : Owned q (a :: batch) fresh := by
  have moved : (batch ++ a :: fresh).Perm (a :: batch ++ fresh) := List.perm_middle
  refine ⟨owned.entries, owned.active, owned.sizes, owned.addressed,
    moved.nodup_iff.mp owned.distinct, ?_, owned.gone, owned.once, ?_⟩
  · intro b loose
    exact owned.apart b (moved.mem_iff.mpr loose)
  · intro id inserted
    rcases owned.held id inserted with deleted | ⟨live, place⟩
    · exact Or.inl deleted
    · exact Or.inr ⟨live, place.imp_right (List.mem_cons_of_mem a)⟩

theorem noteInserted (owned : Owned q (a :: batch) fresh) (here : q.heap a = some t) :
    Owned (q.note (.inserted ⟨a, t.sequence_⟩)) (a :: batch) fresh := by
  refine ⟨owned.entries, owned.active, owned.sizes, owned.addressed, owned.distinct, owned.apart,
    ?_, ?_, ?_⟩
  · intro id deleted
    simp only [TimerQueue.note, List.mem_append, List.mem_singleton, reduceCtorEq, or_false]
      at deleted
    exact owned.gone id deleted
  · intro id
    simp only [TimerQueue.note, List.count_append, List.count_singleton, beq_iff_eq, reduceCtorEq,
      if_false, Nat.add_zero]
    exact owned.once id
  · intro id inserted
    simp only [TimerQueue.note, List.mem_append, List.mem_singleton, reduceCtorEq, or_false,
      Moment.inserted.injEq] at inserted ⊢
    rcases inserted with old | rfl
    · exact owned.held id old
    · exact Or.inr ⟨⟨t, here, rfl⟩, Or.inr (List.mem_cons_self)⟩

theorem activate {timers : OrderedSet Entry} {active : OrderedSet TimerId}
    (owned : Owned q (a :: batch) fresh) (here : q.heap a = some t)
    (timers_iff : ∀ e, e ∈ timers ↔ e = ⟨t.expiration_, a⟩ ∨ e ∈ q.timers_)
    (active_iff : ∀ id, id ∈ active ↔ id = ⟨a, t.sequence_⟩ ∨ id ∈ q.activeTimers_)
    (sizes : timers.size = active.size) :
    Owned { q with timers_ := timers, activeTimers_ := active } batch fresh := by
  obtain ⟨unused, rest⟩ := List.nodup_cons.mp owned.distinct
  refine ⟨?_, ?_, sizes, owned.addressed, rest, ?_, owned.gone, owned.once, ?_⟩
  · intro e
    rw [timers_iff, owned.entries]
    constructor
    · rintro (rfl | ⟨u, there, same, member⟩)
      · exact ⟨t, here, rfl, (active_iff _).mpr (Or.inl rfl)⟩
      · exact ⟨u, there, same, (active_iff _).mpr (Or.inr member)⟩
    · rintro ⟨u, there, same, member⟩
      rcases (active_iff _).mp member with new | old
      · left
        obtain ⟨place, -⟩ := TimerId.mk.inj new
        rw [place, here] at there
        cases there
        rw [same, ← place]
      · exact Or.inr ⟨u, there, same, old⟩
  · intro id member
    rcases (active_iff id).mp member with rfl | old
    · exact ⟨t, here, rfl⟩
    · exact owned.active id old
  · intro b loose
    obtain ⟨u, there, absent⟩ := owned.apart b (List.mem_cons_of_mem a loose)
    refine ⟨u, there, ?_⟩
    intro member
    rcases (active_iff _).mp member with new | old
    · obtain ⟨rfl, -⟩ := TimerId.mk.inj new
      exact unused loose
    · exact absent old
  · intro id inserted
    rcases owned.held id inserted with deleted | ⟨live, place⟩
    · exact Or.inl deleted
    · refine Or.inr ⟨live, ?_⟩
      rcases place with old | loose
      · exact Or.inl ((active_iff id).mpr (Or.inr old))
      · rcases List.mem_cons.mp loose with new | other
        · left
          subst new
          have same := (live_iff here).mp live
          rw [active_iff, same]
          exact Or.inl rfl
        · exact Or.inr other

theorem release {timers : OrderedSet Entry} {active : OrderedSet TimerId} {es : List Entry}
    (owned : Owned q batch fresh) (members : ∀ e ∈ es, e ∈ q.timers_)
    (distinct : (es.map Entry.timer).Nodup)
    (timers_iff : ∀ e, e ∈ timers ↔ e ∈ q.timers_ ∧ e ∉ es)
    (active_iff : ∀ id, id ∈ active ↔ id ∈ q.activeTimers_ ∧ id.timer_ ∉ es.map Entry.timer)
    (sizes : timers.size = active.size) :
    Owned { q with timers_ := timers, activeTimers_ := active } (es.map Entry.timer ++ batch)
      fresh := by
  have inside : ∀ b ∈ es.map Entry.timer, ∃ u, q.heap b = some u ∧ ⟨u.expiration_, b⟩ ∈ es ∧
      ⟨b, u.sequence_⟩ ∈ q.activeTimers_ := by
    intro b member
    obtain ⟨e, listed, rfl⟩ := List.mem_map.mp member
    obtain ⟨u, there, same, activeHere⟩ := owned.live_of_entry (members e listed)
    refine ⟨u, there, ?_, activeHere⟩
    rw [same]
    exact listed
  refine ⟨?_, ?_, sizes, owned.addressed, ?_, ?_, owned.gone, owned.once, ?_⟩
  · intro e
    rw [timers_iff, owned.entries]
    constructor
    · rintro ⟨⟨u, there, same, member⟩, kept⟩
      refine ⟨u, there, same, (active_iff _).mpr ⟨member, ?_⟩⟩
      intro listed
      obtain ⟨v, there', listed', -⟩ := inside _ listed
      rw [there] at there'
      cases there'
      rw [same] at listed'
      exact kept listed'
    · rintro ⟨u, there, same, member⟩
      obtain ⟨old, kept⟩ := (active_iff _).mp member
      exact ⟨⟨u, there, same, old⟩, fun listed => kept (List.mem_map_of_mem listed)⟩
  · intro id member
    exact owned.active id ((active_iff id).mp member).1
  · rw [List.append_assoc]
    refine List.nodup_append.mpr ⟨distinct, owned.distinct, ?_⟩
    rintro b listed c loose rfl
    obtain ⟨u, -, -, activeHere⟩ := inside b listed
    exact owned.not_loose activeHere loose
  · intro b loose
    rw [List.append_assoc] at loose
    rcases List.mem_append.mp loose with listed | old
    · obtain ⟨u, there, -, -⟩ := inside b listed
      exact ⟨u, there, fun member => ((active_iff _).mp member).2 listed⟩
    · obtain ⟨u, there, absent⟩ := owned.apart b old
      exact ⟨u, there, fun member => absent ((active_iff _).mp member).1⟩
  · intro id inserted
    rcases owned.held id inserted with deleted | ⟨live, place⟩
    · exact Or.inl deleted
    · refine Or.inr ⟨live, ?_⟩
      rcases place with old | loose
      · by_cases listed : id.timer_ ∈ es.map Entry.timer
        · exact Or.inr (List.mem_append_left _ listed)
        · exact Or.inl ((active_iff id).mpr ⟨old, listed⟩)
      · exact Or.inr (List.mem_append_right _ loose)

theorem rekey {t' : Timer} (owned : Owned q (a :: batch) fresh) (here : q.heap a = some t)
    (same : t'.sequence_ = t.sequence_) :
    Owned { q with heap := Function.update q.heap a (some t') } (a :: batch) fresh := by
  have live : ∀ id, Live { q with heap := Function.update q.heap a (some t') } id ↔ q.Live id := by
    intro id
    by_cases new : id.timer_ = a
    · subst new
      rw [live_iff here, live_iff (Function.update_self _ _ _), same]
    · exact live_update new
  have inactive := owned.inactive_of_loose
  refine ⟨owned.entries_update inactive _, ?_, owned.sizes, ?_, owned.distinct, ?_, ?_,
    owned.once, ?_⟩
  · intro id member
    exact (live id).mpr (owned.active id member)
  · intro b u there
    by_cases new : b = a
    · subst new
      simp only [Function.update_self, Option.some.injEq] at there
      subst there
      rw [same]
      exact owned.addressed b t here
    · simp only [Function.update_of_ne new] at there
      exact owned.addressed b u there
  · intro b loose
    by_cases new : b = a
    · subst new
      exact ⟨t', Function.update_self _ _ _, fun member => inactive _ member rfl⟩
    · simp only [Function.update_of_ne new]
      exact owned.apart b loose
  · intro id deleted
    rw [live]
    exact owned.gone id deleted
  · intro id inserted
    rw [live]
    exact owned.held id inserted

theorem destroy (owned : Owned q (a :: batch) fresh) (here : q.heap a = some t) :
    Owned ({ q with heap := Function.update q.heap a none }.note (.deleted ⟨a, t.sequence_⟩))
      batch fresh := by
  obtain ⟨unused, rest⟩ := List.nodup_cons.mp owned.distinct
  have inactive := owned.inactive_of_loose
  have live : ∀ id, Live { q with heap := Function.update q.heap a none } id ↔
      id.timer_ ≠ a ∧ q.Live id := by
    intro id
    by_cases new : id.timer_ = a
    · simp [Live, new]
    · simp only [live_update new, new, ne_eq, not_false_eq_true, true_and]
  refine ⟨owned.entries_update inactive _, ?_, owned.sizes, ?_, rest, ?_, ?_, ?_, ?_⟩
  · intro id member
    exact (live id).mpr ⟨inactive _ member, owned.active id member⟩
  · intro b u there
    by_cases new : b = a
    · simp [TimerQueue.note, new] at there
    · simp only [TimerQueue.note, Function.update_of_ne new] at there
      exact owned.addressed b u there
  · intro b loose
    have other : b ≠ a := by
      rintro rfl
      exact unused loose
    simp only [TimerQueue.note, Function.update_of_ne other]
    exact owned.apart b (List.mem_cons_of_mem a loose)
  · intro id deleted
    show ¬Live { q with heap := Function.update q.heap a none } id ∧ _
    rw [live]
    simp only [TimerQueue.note, List.mem_append, List.mem_singleton, Moment.deleted.injEq] at deleted
    rcases deleted with old | rfl
    · obtain ⟨dead, number⟩ := owned.gone id old
      exact ⟨fun both => dead both.2, number⟩
    · exact ⟨fun both => both.1 rfl, (owned.addressed a t here).2⟩
  · intro id
    simp only [TimerQueue.note, List.count_append, List.count_singleton, beq_iff_eq,
      Moment.deleted.injEq]
    by_cases new : (⟨a, t.sequence_⟩ : TimerId) = id
    · -- A live Timer has not been deleted before.
      have none_before : q.journal.count (.deleted id) = 0 := by
        apply List.count_eq_zero.mpr
        intro old
        subst new
        exact (owned.gone _ old).1 ⟨t, here, rfl⟩
      rw [none_before, if_pos new]
    · rw [if_neg new]
      exact owned.once id
  · intro id inserted
    show _ ∨ Live { q with heap := Function.update q.heap a none } id ∧ _
    simp only [TimerQueue.note, List.mem_append, List.mem_singleton, reduceCtorEq, or_false,
      Moment.deleted.injEq] at inserted ⊢
    rcases owned.held id inserted with deleted | ⟨was, place⟩
    · exact Or.inl (Or.inl deleted)
    · by_cases new : id.timer_ = a
      · left
        right
        subst new
        rw [(live_iff here).mp was]
      · refine Or.inr ⟨(live id).mpr ⟨new, was⟩, place.imp_right ?_⟩
        intro loose
        exact (List.mem_cons.mp loose).resolve_left new

end Owned
end TimerQueue
end Muduo
