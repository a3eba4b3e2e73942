import Muduo.Net.TimerQueueOwned

/-!
What each function of TimerQueue.cc does to a queue whose Timers are all owned: it
passes its assertions, touches no deleted Timer, keeps the ownership, and changes
what is listed here.
-/
namespace Muduo
open Lib
namespace TimerQueue
variable {q q' : TimerQueue} {batch fresh : List Nat} {a : Nat} {t : Timer} {id : TimerId}
  {e : Entry} {now : Int}

theorem entry_lt_iff {f : Entry} :
    e < f ↔ e.when_ < f.when_ ∨ e.when_ = f.when_ ∧ e.timer < f.timer := by
  have lifted : e < f ↔ toLex (e.when_, e.timer) < toLex (f.when_, f.timer) := Iff.rfl
  rw [lifted, Prod.Lex.toLex_lt_toLex]

theorem when_le_of_le {f : Entry} (le : e ≤ f) : e.when_ ≤ f.when_ := by
  rcases lt_or_eq_of_le le with less | same
  · rcases entry_lt_iff.mp less with earlier | ⟨same, -⟩
    · exact le_of_lt earlier
    · exact le_of_eq same
  · rw [same]

theorem deref_live (here : q.heap a = some t) : q.deref a = .ok t := by
  simp [deref, here]

theorem delete_live (here : q.heap a = some t) :
    q.delete a =
      .ok ({ q with heap := Function.update q.heap a none }.note (.deleted ⟨a, t.sequence_⟩)) := by
  simp [delete, deref_live here]

theorem howMuchTimeFromNow_ne_zero (when_ now : Int) : howMuchTimeFromNow when_ now ≠ ⟨0, 0⟩ := by
  intro zero
  simp only [howMuchTimeFromNow, Timespec.mk.injEq] at zero
  split at zero
  · omega
  · omega

theorem resetTimerfd_arms (expiration clock : Int) :
    q.resetTimerfd expiration clock =
      { q with
        alarm := some ⟨howMuchTimeFromNow expiration clock, false, expiration, clock⟩ } := by
  simp [resetTimerfd, howMuchTimeFromNow_ne_zero]

structure Inserted (q : TimerQueue) (a : Nat) (t : Timer) (q' : TimerQueue) (changed : Bool) :
    Prop where
  frame : q' = { q with timers_ := q'.timers_, activeTimers_ := q'.activeTimers_ }
  timers : ∀ e, e ∈ q'.timers_ ↔ e = ⟨t.expiration_, a⟩ ∨ e ∈ q.timers_
  active : ∀ id, id ∈ q'.activeTimers_ ↔ id = ⟨a, t.sequence_⟩ ∨ id ∈ q.activeTimers_
  sizes : q'.timers_.size = q'.activeTimers_.size
  earliest : changed = true → ∀ e ∈ q'.timers_, t.expiration_ ≤ e.when_
  later : changed = false → ∃ e ∈ q.timers_, e.when_ ≤ t.expiration_

theorem insert_spec (owned : Owned q (a :: batch) fresh) (here : q.heap a = some t) :
    ∃ q' changed, q.insert a = .ok (q', changed) ∧ Inserted q a t q' changed := by
  obtain ⟨u, there, inactive⟩ := owned.apart a List.mem_cons_self
  obtain rfl : t = u := Option.some.inj (here.symm.trans there)
  have absent : (⟨t.expiration_, a⟩ : Entry) ∉ q.timers_ := by
    intro member
    obtain ⟨v, there', -, member'⟩ := owned.live_of_entry member
    obtain rfl : t = v := Option.some.inj (here.symm.trans there')
    exact inactive member'
  obtain ⟨timers, timers_eq, timers_size, timers_iff⟩ := OrderedSet.insert_new absent
  obtain ⟨active, active_eq, active_size, active_iff⟩ := OrderedSet.insert_new inactive
  have sizes : timers.size = active.size := by
    rw [timers_size, active_size, owned.sizes]
  refine ⟨{ q with timers_ := timers, activeTimers_ := active },
    q.timers_.first.all fun e => t.expiration_ < e.when_, ?_,
    ⟨rfl, timers_iff, active_iff, sizes, ?_, ?_⟩⟩
  · simp [insert, assertSizes, owned.sizes, deref_live here, timers_eq, active_eq,
      sizes]
  · intro changed e member
    rcases (timers_iff e).mp member with rfl | old
    · exact le_refl _
    · cases head : q.timers_.first with
      | none => exact absurd old (OrderedSet.first_none head e)
      | some f =>
        have less : t.expiration_ < f.when_ := by simpa [head] using changed
        exact le_trans (le_of_lt less) (when_le_of_le (OrderedSet.first_le head old))
  · intro same
    cases head : q.timers_.first with
    | none => simp [head] at same
    | some f => exact ⟨f, OrderedSet.first_mem head, by simpa [head] using same⟩

theorem owned_of_inserted {changed : Bool} (owned : Owned q (a :: batch) fresh)
    (here : q.heap a = some t) (inserted : Inserted q a t q' changed) : Owned q' batch fresh := by
  rw [inserted.frame]
  exact owned.activate here inserted.timers inserted.active inserted.sizes

def Set (q : TimerQueue) (expiration clock : Int) : Prop :=
  q.alarm = some ⟨howMuchTimeFromNow expiration clock, false, expiration, clock⟩

structure Added (q : TimerQueue) (a : Nat) (t : Timer) (clock : Int) (q' : TimerQueue) : Prop where
  heap : q'.heap = q.heap
  numCreated : q'.numCreated = q.numCreated
  calling : q'.callingExpiredTimers_ = q.callingExpiredTimers_
  canceling : q'.cancelingTimers_ = q.cancelingTimers_
  journal : q'.journal = q.journal ++ [.inserted ⟨a, t.sequence_⟩]
  timers : ∀ e, e ∈ q'.timers_ ↔ e = ⟨t.expiration_, a⟩ ∨ e ∈ q.timers_
  alarm : q'.Set t.expiration_ clock ∧ (∀ e ∈ q'.timers_, t.expiration_ ≤ e.when_) ∨
    q'.alarm = q.alarm ∧ ∃ e ∈ q.timers_, e.when_ ≤ t.expiration_

theorem addTimerInLoop_spec (clock : Int) (owned : Owned q batch (a :: fresh))
    (here : q.heap a = some t) :
    ∃ q', q.addTimerInLoop a clock = .ok q' ∧ Owned q' batch fresh ∧ Added q a t clock q' := by
  have loose := owned.adopt
  obtain ⟨q₁, changed, inserts, inserted⟩ := insert_spec loose here
  have heap : q₁.heap = q.heap := by rw [inserted.frame]
  have after : Owned (q₁.note (.inserted ⟨a, t.sequence_⟩)) batch fresh := by
    -- insert does not read the journal, so the note may as well come first.
    have activated :=
      (loose.noteInserted here).activate here inserted.timers inserted.active inserted.sizes
    rw [inserted.frame]
    exact activated
  have read : q₁.deref a = .ok t := deref_live (heap ▸ here)
  cases changed with
  | false =>
    refine ⟨q₁.note (.inserted ⟨a, t.sequence_⟩), ?_, after, ?_⟩
    · simp [addTimerInLoop, inserts, read]
    · have later := inserted.later rfl
      have timers := inserted.timers
      rw [inserted.frame] at timers ⊢
      exact ⟨rfl, rfl, rfl, rfl, rfl, timers, Or.inr ⟨rfl, later⟩⟩
  | true =>
    refine ⟨(q₁.note (.inserted ⟨a, t.sequence_⟩)).resetTimerfd t.expiration_ clock, ?_, ?_, ?_⟩
    · simp [addTimerInLoop, inserts, read]
    · rw [resetTimerfd_arms]
      exact after.of_same rfl rfl rfl rfl rfl
    · have earliest := inserted.earliest rfl
      have timers := inserted.timers
      rw [resetTimerfd_arms]
      rw [inserted.frame] at timers earliest ⊢
      exact ⟨rfl, rfl, rfl, rfl, rfl, timers, Or.inl ⟨rfl, earliest⟩⟩

inductive Cancelled (q : TimerQueue) (id : TimerId) (known : List TimerId) : TimerQueue → Prop where
  | removed {timers : OrderedSet Entry} {active : OrderedSet TimerId} {t : Timer}
      (was : id ∈ q.activeTimers_)
      (timers_iff : ∀ e, e ∈ timers ↔ e ∈ q.timers_ ∧ e ≠ ⟨t.expiration_, id.timer_⟩)
      (active_iff : ∀ x, x ∈ active ↔ x ∈ q.activeTimers_ ∧ x ≠ id)
      (here : q.heap id.timer_ = some t) :
      Cancelled q id known
        { q with
          timers_ := timers, activeTimers_ := active
          heap := Function.update q.heap id.timer_ none
          journal := q.journal ++ [.deleted id] ++ [.cancelled id known] }
  | noted (absent : id ∉ q.activeTimers_) (calling : q.callingExpiredTimers_ = true) :
      Cancelled q id known
        { q with
          cancelingTimers_ := (q.cancelingTimers_.insert id).1
          journal := q.journal ++ [.cancelled id known] }
  | ignored (absent : id ∉ q.activeTimers_) (idle : q.callingExpiredTimers_ = false) :
      Cancelled q id known (q.note (.cancelled id known))

theorem cancelInLoop_spec (id : TimerId) (known : List TimerId) (owned : Owned q batch fresh) :
    ∃ q', q.cancelInLoop id known = .ok q' ∧ Owned q' batch fresh ∧ Cancelled q id known q' := by
  have plain : ∀ x : TimerId,
      Moment.cancelled id known ≠ .inserted x ∧ Moment.cancelled id known ≠ .deleted x := by
    intro x
    exact ⟨by simp, by simp⟩
  by_cases was : id ∈ q.activeTimers_
  · obtain ⟨t, here, same, member⟩ := owned.entry_of_active was
    obtain ⟨timers, timers_eq, timers_size, timers_iff⟩ := OrderedSet.erase_member member
    obtain ⟨active, active_eq, active_size, active_iff⟩ := OrderedSet.erase_member was
    have sizes : timers.size = active.size := by
      have before := owned.sizes
      omega
    have released : Owned { q with timers_ := timers, activeTimers_ := active }
        (id.timer_ :: batch) fresh := by
      have single : ∀ e ∈ [(⟨t.expiration_, id.timer_⟩ : Entry)], e ∈ q.timers_ := by
        simpa using member
      refine owned.release single ?_ ?_ ?_ sizes
      · simp
      · simpa using timers_iff
      · intro x
        rw [active_iff]
        simp only [List.map_cons, List.map_nil, List.mem_singleton]
        constructor
        · rintro ⟨old, other⟩
          exact ⟨old, fun place => other (live_unique (owned.active x old) (owned.active id was) place)⟩
        · rintro ⟨old, other⟩
          exact ⟨old, fun same => other (same ▸ rfl)⟩
    have destroyed := (released.destroy here).note plain
    refine ⟨_, ?_, destroyed, ?_⟩
    · have erased : (q.activeTimers_.erase id).1 = active := by rw [active_eq]
      have removed : TimerQueue.delete { q with timers_ := timers } id.timer_ = .ok _ :=
        delete_live here
      simp [cancelInLoop, assertSizes, owned.sizes, was, deref_live here, timers_eq, removed,
        note, erased, sizes]
    · have name : (⟨id.timer_, t.sequence_⟩ : TimerId) = id := by
        rw [same]
      simp only [note, name]
      exact .removed was timers_iff active_iff here
  · by_cases calling : q.callingExpiredTimers_ = true
    · refine ⟨_, ?_, ?_, .noted was calling⟩
      · simp [cancelInLoop, assertSizes, owned.sizes, was, calling, note]
      · exact (owned.note plain).of_same rfl rfl rfl rfl rfl
    · simp only [Bool.not_eq_true] at calling
      refine ⟨_, ?_, owned.note plain, .ignored was calling⟩
      simp [cancelInLoop, assertSizes, owned.sizes, was, calling]

theorem eraseActive_fold {es : List Entry} (distinct : (es.map Entry.timer).Nodup)
    (members : ∀ e ∈ es, ∃ t, q.heap e.timer = some t ∧ ⟨e.timer, t.sequence_⟩ ∈ q.activeTimers_)
    (live : ∀ id ∈ q.activeTimers_, q.Live id) :
    ∃ active, es.foldlM eraseActive q = .ok { q with activeTimers_ := active } ∧
      active.size + es.length = q.activeTimers_.size ∧
      ∀ id, id ∈ active ↔ id ∈ q.activeTimers_ ∧ id.timer_ ∉ es.map Entry.timer := by
  induction es generalizing q with
  | nil => exact ⟨q.activeTimers_, rfl, by simp, by simp⟩
  | cons e es ih =>
    obtain ⟨unused, rest⟩ := List.nodup_cons.mp distinct
    obtain ⟨t, here, member⟩ := members e List.mem_cons_self
    obtain ⟨active, active_eq, active_size, active_iff⟩ := OrderedSet.erase_member member
    have at_iff : ∀ id, id ∈ active ↔ id ∈ q.activeTimers_ ∧ id.timer_ ≠ e.timer := by
      intro id
      rw [active_iff]
      constructor
      · rintro ⟨old, other⟩
        exact ⟨old, fun place => other (live_unique (live id old) (live _ member) place)⟩
      · rintro ⟨old, other⟩
        exact ⟨old, fun same => other (same ▸ rfl)⟩
    obtain ⟨final, folded, size, final_iff⟩ :=
      ih (q := { q with activeTimers_ := active }) rest (by
        intro f listed
        obtain ⟨u, there, member'⟩ := members f (List.mem_cons_of_mem e listed)
        refine ⟨u, there, (at_iff _).mpr ⟨member', ?_⟩⟩
        intro place
        exact unused (List.mem_map.mpr ⟨f, listed, place⟩)) (by
        intro id kept
        exact live id ((at_iff id).mp kept).1)
    refine ⟨final, ?_, ?_, ?_⟩
    · have first : q.eraseActive e = .ok { q with activeTimers_ := active } := by
        simp [eraseActive, deref_live here, active_eq]
      simp only [List.foldlM_cons, first, ok_bind, folded]
    · simp only [List.length_cons] at size ⊢
      omega
    · intro id
      rw [final_iff, at_iff]
      simp only [List.map_cons, List.mem_cons, not_or, and_assoc]

theorem mem_below_sentry (owned : Owned q batch fresh) :
    e ∈ q.timers_.below ⟨now, uintptrMax⟩ ↔ e ∈ q.timers_ ∧ e.when_ ≤ now := by
  rw [OrderedSet.mem_below, entry_lt_iff]
  constructor
  · rintro ⟨member, earlier | ⟨same, -⟩⟩
    · exact ⟨member, le_of_lt earlier⟩
    · exact ⟨member, le_of_eq same⟩
  · rintro ⟨member, le⟩
    obtain ⟨t, here, -⟩ := owned.live_of_entry member
    have small := (owned.addressed _ t here).1
    exact ⟨member, (lt_or_eq_of_le le).imp_right fun same => ⟨same, small⟩⟩

theorem mem_atLeast_sentry (owned : Owned q batch fresh) :
    e ∈ q.timers_.atLeast ⟨now, uintptrMax⟩ ↔ e ∈ q.timers_ ∧ now < e.when_ := by
  rw [OrderedSet.mem_atLeast]
  apply and_congr_right
  intro member
  have below : e ∈ q.timers_.below ⟨now, uintptrMax⟩ ↔ e ∈ q.timers_ ∧ e.when_ ≤ now :=
    mem_below_sentry owned
  rw [OrderedSet.mem_below] at below
  have due : e < ⟨now, uintptrMax⟩ ↔ e.when_ ≤ now := by
    simpa only [member, true_and] using below
  rw [← not_lt, due, not_le]

theorem nodup_addresses {es : List Entry} (owned : Owned q batch fresh)
    (members : ∀ e ∈ es, e ∈ q.timers_) (nodup : es.Nodup) : (es.map Entry.timer).Nodup := by
  apply nodup.map_on
  intro e listed f listed' place
  obtain ⟨t, here, same, -⟩ := owned.live_of_entry (members e listed)
  obtain ⟨u, there, same', -⟩ := owned.live_of_entry (members f listed')
  rw [place, there] at here
  cases here
  exact Entry.key_injective (by simp [place, ← same, ← same'])

theorem getExpired_spec (now : Int) (owned : Owned q batch fresh) :
    ∃ timers active es, q.getExpired now =
        .ok ({ q with timers_ := timers, activeTimers_ := active }, es) ∧
      Owned { q with timers_ := timers, activeTimers_ := active } (es.map Entry.timer ++ batch)
        fresh ∧
      ∀ e, e ∈ timers ↔ e ∈ q.timers_ ∧ now < e.when_ := by
  let sentry : Entry := ⟨now, uintptrMax⟩
  have below_iff : ∀ e, e ∈ q.timers_.below sentry ↔ e ∈ q.timers_ ∧ e.when_ ≤ now :=
    fun _ => mem_below_sentry owned
  have rest_iff : ∀ e, e ∈ q.timers_.atLeast sentry ↔ e ∈ q.timers_ ∧ now < e.when_ :=
    fun _ => mem_atLeast_sentry owned
  have members : ∀ e ∈ q.timers_.below sentry, e ∈ q.timers_ := by
    intro e listed
    exact ((below_iff e).mp listed).1
  have distinct := nodup_addresses owned members (OrderedSet.nodup_below _ _)
  obtain ⟨active, folded, size, active_iff⟩ :=
    eraseActive_fold (q := { q with timers_ := q.timers_.atLeast sentry }) distinct (by
      intro e listed
      obtain ⟨t, here, -, member⟩ := owned.live_of_entry (members e listed)
      exact ⟨t, here, member⟩) owned.active
  have sizes : (q.timers_.atLeast sentry).size = active.size := by
    have cut := OrderedSet.size_below q.timers_ sentry
    have before := owned.sizes
    simp only at size
    omega
  have after_now : (q.timers_.atLeast sentry).first.all (fun e => decide (now < e.when_)) = true := by
    cases head : (q.timers_.atLeast sentry).first with
    | none => rfl
    | some e => simpa using ((rest_iff e).mp (OrderedSet.first_mem head)).2
  refine ⟨q.timers_.atLeast sentry, active, q.timers_.below sentry, ?_, ?_, rest_iff⟩
  · simp [getExpired, assertSizes, owned.sizes, sentry, after_now, folded, sizes]
  · refine owned.release members distinct ?_ active_iff sizes
    intro e
    rw [rest_iff, below_iff, ← not_le]
    tauto

structure Taken (q : TimerQueue) (now : Int) (q' : TimerQueue) (ds : List Due) : Prop where
  heap : q'.heap = q.heap
  numCreated : q'.numCreated = q.numCreated
  calling : q'.callingExpiredTimers_ = true
  canceling : q'.cancelingTimers_ = .empty
  journal : q'.journal = q.journal
  alarm : q'.alarm = q.alarm.filter fun alarm => !alarm.fired
  timers : ∀ e, e ∈ q'.timers_ ↔ e ∈ q.timers_ ∧ now < e.when_
  live : ∀ d ∈ ds, q'.Live d.id

def addresses (ds : List Due) : List Nat := (ds.map Due.entry).map Entry.timer

theorem takeExpired_spec (now : Int) (owned : Owned q [] fresh) :
    ∃ q' ds, q.takeExpired now = .ok (q', ds) ∧ Owned q' (addresses ds) fresh ∧
      Taken q now q' ds := by
  have read : Owned q.readTimerfd [] fresh := owned.of_same rfl rfl rfl rfl rfl
  obtain ⟨timers, active, es, expired, after, timers_iff⟩ := getExpired_spec now read
  rw [List.append_nil] at after
  let q' : TimerQueue :=
    { q.readTimerfd with
      timers_ := timers, activeTimers_ := active, callingExpiredTimers_ := true
      cancelingTimers_ := .empty }
  have entries : (es.map q'.due).map Due.entry = es := by
    rw [List.map_map]
    exact List.map_id es
  refine ⟨q', es.map q'.due, ?_, ?_, ⟨rfl, rfl, rfl, rfl, rfl, rfl, timers_iff, ?_⟩⟩
  · simp only [takeExpired, expired, ok_bind, pure_eq_ok]
    rfl
  · rw [addresses, entries]
    exact after.of_same rfl rfl rfl rfl rfl
  · intro d listed
    obtain ⟨e, member, rfl⟩ := List.mem_map.mp listed
    obtain ⟨t, here, -⟩ := after.apart e.timer
      (List.mem_append_left _ (List.mem_map_of_mem member))
    have here : q'.heap e.timer = some t := here
    refine ⟨t, here, ?_⟩
    simp [due, Due.id, here]

structure Turned (now : Int) (q q' : TimerQueue) : Prop where
  numCreated : q'.numCreated = q.numCreated
  calling : q'.callingExpiredTimers_ = q.callingExpiredTimers_
  canceling : q'.cancelingTimers_ = q.cancelingTimers_
  alarm : q'.alarm = q.alarm
  journal : ∃ more, q'.journal = q.journal ++ more ∧ ∀ m ∈ more, ∃ id, m = .deleted id
  live : ∀ id, q'.Live id → q.Live id
  timers : ∀ e ∈ q'.timers_, e ∈ q.timers_ ∨ now ≤ e.when_

theorem turned_refl (now : Int) (q : TimerQueue) : Turned now q q :=
  ⟨rfl, rfl, rfl, rfl, ⟨[], by simp, by simp⟩, fun _ live => live, fun _ member => Or.inl member⟩

theorem turned_trans {q'' : TimerQueue} (first : Turned now q q') (second : Turned now q' q'') :
    Turned now q q'' := by
  obtain ⟨more, journal, deleted⟩ := first.journal
  obtain ⟨more', journal', deleted'⟩ := second.journal
  refine ⟨second.numCreated.trans first.numCreated, second.calling.trans first.calling,
    second.canceling.trans first.canceling, second.alarm.trans first.alarm,
    ⟨more ++ more', ?_, ?_⟩, fun id live => first.live id (second.live id live), ?_⟩
  · rw [journal', journal, List.append_assoc]
  · intro m member
    rcases List.mem_append.mp member with early | late
    · exact deleted m early
    · exact deleted' m late
  · intro e member
    rcases second.timers e member with old | new
    · exact first.timers e old
    · exact Or.inr new

theorem restart_not_before (repeats : t.repeat_ = true) :
    now ≤ (t.restart now).expiration_ := by
  have nonnegative := t.interval_.nonnegative (t.repeats ▸ repeats)
  simp only [Timer.restart, repeats, if_true]
  omega

theorem restartOrDelete_spec (now : Int) (owned : Owned q (e.timer :: batch) fresh)
    (here : q.heap e.timer = some t) :
    ∃ q', restartOrDelete now q e = .ok q' ∧ Owned q' batch fresh ∧ Turned now q q' ∧
      (∀ id, id.timer_ ≠ e.timer → (q'.Live id ↔ q.Live id)) ∧
      (⟨e.timer, t.sequence_⟩ ∈ q.cancelingTimers_ → ¬q'.Live ⟨e.timer, t.sequence_⟩) := by
  by_cases again : t.repeat_ = true ∧ (⟨e.timer, t.sequence_⟩ : TimerId) ∉ q.cancelingTimers_
  · have number : (t.restart now).sequence_ = t.sequence_ := rfl
    have rekeyed := owned.rekey here number
    have there : (Function.update q.heap e.timer (some (t.restart now))) e.timer =
        some (t.restart now) := Function.update_self _ _ _
    obtain ⟨q', changed, inserts, inserted⟩ := insert_spec rekeyed there
    have live : ∀ id, q'.Live id ↔ q.Live id := by
      intro id
      have heap : q'.heap = Function.update q.heap e.timer (some (t.restart now)) := by
        rw [inserted.frame]
      by_cases place : id.timer_ = e.timer
      · have there' : q'.heap id.timer_ = some (t.restart now) := by rw [heap, place, there]
        rw [live_iff there', live_iff (place ▸ here)]
        rfl
      · simp [Live, heap, Function.update_of_ne place]
    refine ⟨q', ?_, owned_of_inserted rekeyed there inserted, ?_, fun id _ => live id, ?_⟩
    · simp [restartOrDelete, deref_live here, again, inserts]
    · have timers := inserted.timers
      refine ⟨?_, ?_, ?_, ?_, ⟨[], ?_, by simp⟩, fun id => (live id).mp, ?_⟩
      · rw [inserted.frame]
      · rw [inserted.frame]
      · rw [inserted.frame]
      · rw [inserted.frame]
      · rw [inserted.frame, List.append_nil]
      · intro f member
        rcases (timers f).mp member with rfl | old
        · exact Or.inr (restart_not_before again.1)
        · exact Or.inl old
    · intro canceled
      exact absurd canceled again.2
  · refine ⟨_, ?_, owned.destroy here, ⟨rfl, rfl, rfl, rfl, ⟨[.deleted ⟨e.timer, t.sequence_⟩], rfl,
      by simp⟩, ?_, fun f member => Or.inl member⟩, ?_, ?_⟩
    · simp only [restartOrDelete, deref_live here, ok_bind, if_neg again, delete_live here]
    · rintro id ⟨u, there, number⟩
      by_cases place : id.timer_ = e.timer
      · simp [note, place] at there
      · simp only [note, Function.update_of_ne place] at there
        exact ⟨u, there, number⟩
    · intro id place
      exact live_update place
    · rintro - ⟨u, there, -⟩
      simp [note] at there

theorem reset_fold (now : Int) {ds : List Due} (owned : Owned q (addresses ds ++ batch) fresh)
    (live : ∀ d ∈ ds, q.Live d.id) :
    ∃ q', (ds.map Due.entry).foldlM (restartOrDelete now) q = .ok q' ∧ Owned q' batch fresh ∧
      Turned now q q' ∧ ∀ d ∈ ds, d.id ∈ q.cancelingTimers_ → ¬q'.Live d.id := by
  induction ds generalizing q with
  | nil => exact ⟨q, rfl, owned, turned_refl now q, by simp⟩
  | cons d ds ih =>
    obtain ⟨t, here, number⟩ := live d List.mem_cons_self
    have here : q.heap d.entry.timer = some t := here
    obtain ⟨q₁, first, owned₁, turned, others, canceled⟩ := restartOrDelete_spec now owned here
    have distinct : d.entry.timer ∉ addresses ds := by
      have nodup := owned.distinct
      simp only [addresses, List.map_cons, List.cons_append, List.nodup_cons,
        List.mem_append, not_or] at nodup
      exact nodup.1.1.1
    obtain ⟨q', rest, owned', turned', canceled'⟩ := ih owned₁ (by
      intro d' listed
      refine (others d'.id ?_).mpr (live d' (List.mem_cons_of_mem d listed))
      intro place
      have member : d'.entry.timer ∈ addresses ds :=
        List.mem_map_of_mem (List.mem_map_of_mem listed)
      have place : d'.entry.timer = d.entry.timer := place
      rw [place] at member
      exact distinct member)
    refine ⟨q', ?_, owned', turned_trans turned turned', ?_⟩
    · simp only [List.map_cons, List.foldlM_cons, first, ok_bind, rest]
    · intro d' listed noted
      rcases List.mem_cons.mp listed with rfl | later
      · have name : (⟨d'.entry.timer, t.sequence_⟩ : TimerId) = d'.id := by
          rw [number]
          rfl
        rw [name] at canceled
        exact fun alive => canceled noted (turned'.live _ alive)
      · exact canceled' d' later (turned.canceling ▸ noted)

structure Finished (q : TimerQueue) (ds : List Due) (now clock : Int) (q' : TimerQueue) : Prop where
  numCreated : q'.numCreated = q.numCreated
  calling : q'.callingExpiredTimers_ = false
  canceling : q'.cancelingTimers_ = q.cancelingTimers_
  journal : ∃ more, q'.journal = q.journal ++ more ∧ ∀ m ∈ more, ∃ id, m = .deleted id
  live : ∀ id, q'.Live id → q.Live id
  canceled : ∀ d ∈ ds, d.id ∈ q.cancelingTimers_ → ¬q'.Live d.id
  timers : ∀ e ∈ q'.timers_, e ∈ q.timers_ ∨ now ≤ e.when_
  alarm : (∃ expiration, q'.Set expiration clock ∧ ∀ e ∈ q'.timers_, expiration ≤ e.when_) ∨
    q'.alarm = q.alarm ∧ ∀ e ∈ q'.timers_, ∃ f ∈ q'.timers_, f.when_ ≤ 0 ∧ f.when_ ≤ e.when_

theorem finishExpired_spec {ds : List Due} (now clock : Int) (owned : Owned q (addresses ds) fresh)
    (live : ∀ d ∈ ds, q.Live d.id) :
    ∃ q', q.finishExpired ds now clock = .ok q' ∧ Owned q' [] fresh ∧
      Finished q ds now clock q' := by
  let idle : TimerQueue := { q with callingExpiredTimers_ := false }
  have owned : Owned idle (addresses ds ++ []) fresh := by
    rw [List.append_nil]
    exact owned.of_same rfl rfl rfl rfl rfl
  obtain ⟨q₁, folded, owned₁, turned, canceled⟩ := reset_fold now owned live
  cases head : q₁.timers_.first with
  | none =>
    have none_left := OrderedSet.first_none head
    refine ⟨q₁, ?_, owned₁, turned.numCreated, turned.calling, turned.canceling, turned.journal,
      turned.live, canceled, turned.timers, Or.inr ⟨turned.alarm, ?_⟩⟩
    · simp [finishExpired, reset, idle, folded, nextExpire, head]
    · intro e member
      exact absurd member (none_left e)
  | some f =>
    have least := @OrderedSet.first_le _ _ q₁.timers_ f
    have first := OrderedSet.first_mem head
    obtain ⟨t, here, same, -⟩ := owned₁.live_of_entry first
    have next : q₁.nextExpire = .ok f.when_ := by
      simp [nextExpire, head, deref_live here, same]
    by_cases valid : 0 < f.when_
    · refine ⟨q₁.resetTimerfd f.when_ clock, ?_, ?_, ?_⟩
      · simp [finishExpired, reset, idle, folded, next, valid]
      · rw [resetTimerfd_arms]
        exact owned₁.of_same rfl rfl rfl rfl rfl
      · rw [resetTimerfd_arms]
        refine ⟨turned.numCreated, turned.calling, turned.canceling, turned.journal, turned.live,
          canceled, turned.timers, Or.inl ⟨f.when_, rfl, ?_⟩⟩
        intro e member
        exact when_le_of_le (least head member)
    · refine ⟨q₁, ?_, owned₁, turned.numCreated, turned.calling, turned.canceling,
        turned.journal, turned.live, canceled, turned.timers, Or.inr ⟨turned.alarm, ?_⟩⟩
      · simp [finishExpired, reset, idle, folded, next, valid]
      · intro e member
        exact ⟨f, first, not_lt.mp valid, when_le_of_le (least head member)⟩

end TimerQueue
end Muduo
