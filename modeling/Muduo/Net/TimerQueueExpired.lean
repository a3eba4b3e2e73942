import Muduo.Net.TimerQueueOrder

/-!
One round of handleRead. getExpired cuts timers_ and activeTimers_ at `now`; the
callbacks run in the order of the cut; reset() puts each repeating Timer back once,
unless it was cancelled meanwhile, and deletes the others. A one-shot Timer is thus
gone after the batch in which it ran.
-/
namespace Muduo
open Lib
namespace TimerQueue
variable {ds : List Due}

def Before (e f : Entry) : Prop := e.when_ < f.when_ ∨ e.when_ = f.when_ ∧ e.timer < f.timer

/-- What getExpired(now) returns and leaves. -/
structure Cut (q : TimerQueue) (now : Int) (q' : TimerQueue) (es : List Entry) : Prop where
  ordered : es.Pairwise Before
  due : ∀ e, e ∈ es ↔ e ∈ q.timers_ ∧ e.when_ ≤ now
  timers : ∀ e, e ∈ q'.timers_ ↔ e ∈ q.timers_ ∧ now < e.when_
  active : ∀ id, id ∈ q'.activeTimers_ ↔
    id ∈ q.activeTimers_ ∧ ∃ t, q.heap id.timer_ = some t ∧ now < t.expiration_

variable {q q' : TimerQueue} {batch fresh : List Nat} {a : Nat} {t : Timer} {id : TimerId}
  {now clock : Int}

theorem getExpired_entries {es : List Entry} (ran : q.getExpired now = .ok (q', es)) :
    es = q.timers_.below ⟨now, uintptrMax⟩ := by
  simp only [getExpired] at ran
  obtain ⟨_, -, ran⟩ := bind_eq_ok.mp ran
  obtain ⟨_, -, ran⟩ := bind_eq_ok.mp ran
  obtain ⟨_, -, ran⟩ := bind_eq_ok.mp ran
  obtain ⟨_, -, ran⟩ := bind_eq_ok.mp ran
  exact (Prod.mk.inj (Except.ok.inj ran)).2.symm

theorem below_ordered (s : OrderedSet Entry) (x : Entry) : (s.below x).Pairwise Before := by
  have increasing := s.increasing.sublist (List.takeWhile_sublist (· < x))
  exact increasing.imp fun less => entry_lt_iff.mp less

theorem getExpired_cuts (now : Int) (owned : Owned q batch fresh) :
    ∃ q' es, q.getExpired now = .ok (q', es) ∧ Cut q now q' es := by
  obtain ⟨timers, active, es, ran, after, timers_iff⟩ := getExpired_spec now owned
  obtain rfl := getExpired_entries ran
  refine ⟨_, _, ran, below_ordered _ _, fun e => mem_below_sentry owned, timers_iff, ?_⟩
  intro id
  constructor
  · intro member
    obtain ⟨t, here, number, entry⟩ := after.entry_of_active member
    obtain ⟨old, later⟩ := (timers_iff _).mp entry
    obtain ⟨u, there, -, known⟩ := owned.live_of_entry old
    have here : q.heap id.timer_ = some t := here
    obtain rfl : t = u := Option.some.inj (here.symm.trans there)
    rw [number] at known
    exact ⟨known, t, here, later⟩
  · rintro ⟨known, t, here, later⟩
    obtain ⟨u, there, number, entry⟩ := owned.entry_of_active known
    obtain rfl : t = u := Option.some.inj (here.symm.trans there)
    have kept : (⟨t.expiration_, id.timer_⟩ : Entry) ∈ timers := (timers_iff _).mpr ⟨entry, later⟩
    obtain ⟨v, there', -, member⟩ := after.live_of_entry kept
    have there' : q.heap id.timer_ = some v := there'
    obtain rfl : t = v := Option.some.inj (here.symm.trans there')
    rw [number] at member
    exact member

/-- The batch of handleRead, from the cut until reset(): in order, due, with the Timers as
    they were taken, and run from the front. -/
structure Orderly (q : TimerQueue) (c : Calling) : Prop where
  ordered : (c.expired.map Due.entry).Pairwise Before
  due : ∀ d ∈ c.expired, d.entry.when_ ≤ c.now
  kept : ∀ d ∈ c.expired, ∃ t, q.heap d.entry.timer = some t ∧ t.sequence_ = d.sequence ∧
    t.expiration_ = d.entry.when_
  turns : ∃ done, c.expired = done ++ c.left

theorem takeExpired_ran (ran : q.takeExpired now = .ok (q', ds)) :
    ∃ q₁, q.readTimerfd.getExpired now = .ok (q₁, ds.map Due.entry) := by
  simp only [takeExpired] at ran
  obtain ⟨⟨q₁, es⟩, cut, ran⟩ := bind_eq_ok.mp ran
  obtain ⟨-, rfl⟩ := Prod.mk.inj (Except.ok.inj ran)
  have entries : (es.map q₁.due).map Due.entry = es := by
    rw [List.map_map]
    exact List.map_id es
  exact ⟨q₁, by rw [cut, entries]⟩

theorem takeExpired_entries (ran : q.takeExpired now = .ok (q', ds)) :
    ds.map Due.entry = q.timers_.below ⟨now, uintptrMax⟩ := by
  obtain ⟨q₁, cut⟩ := takeExpired_ran ran
  have same : q.readTimerfd.timers_ = q.timers_ := rfl
  rw [getExpired_entries cut, same]

theorem orderly_of_taken (owned : Owned q [] fresh) (ran : q.takeExpired now = .ok (q', ds))
    (taken : Taken q now q' ds) :
    Orderly q' ⟨now, ds, ds, false⟩ := by
  have entries := takeExpired_entries ran
  have listed : ∀ d ∈ ds, d.entry ∈ q.timers_ ∧ d.entry.when_ ≤ now := by
    intro d member
    apply (mem_below_sentry owned).mp
    rw [← entries]
    exact List.mem_map_of_mem member
  refine ⟨?_, fun d member => (listed d member).2, ?_, [], rfl⟩
  · simp only [entries]
    exact below_ordered _ _
  · intro d member
    obtain ⟨t, here, number⟩ := taken.live d member
    obtain ⟨u, there, same, -⟩ := owned.live_of_entry (listed d member).1
    have here : q'.heap d.entry.timer = some t := here
    rw [taken.heap] at here
    obtain rfl : t = u := Option.some.inj (here.symm.trans there)
    exact ⟨t, by rw [taken.heap]; exact here, number, same⟩

structure RenewedAt (now : Int) (q : TimerQueue) (d : Due) (t : Timer) (q' : TimerQueue) :
    Prop where
  again : t.repeat_ = true → d.id ∉ q.cancelingTimers_ →
    q'.heap d.entry.timer = some (t.restart now) ∧ d.id ∈ q'.activeTimers_
  gone : ¬(t.repeat_ = true ∧ d.id ∉ q.cancelingTimers_) → q'.heap d.entry.timer = none
  heap : ∀ b, b ≠ d.entry.timer → q'.heap b = q.heap b
  active : ∀ id, id.timer_ ≠ d.entry.timer → (id ∈ q'.activeTimers_ ↔ id ∈ q.activeTimers_)
  timers : ∀ e, e.timer ≠ d.entry.timer → (e ∈ q'.timers_ ↔ e ∈ q.timers_)

theorem restartOrDelete_renews {d : Due} (owned : Owned q (d.entry.timer :: batch) fresh)
    (here : q.heap d.entry.timer = some t) (number : t.sequence_ = d.sequence)
    (ran : restartOrDelete now q d.entry = .ok q') : RenewedAt now q d t q' := by
  have name : (⟨d.entry.timer, t.sequence_⟩ : TimerId) = d.id := by
    rw [number]
    rfl
  simp only [restartOrDelete, deref_live here, ok_bind, name] at ran
  by_cases again : t.repeat_ = true ∧ d.id ∉ q.cancelingTimers_
  · have there : (Function.update q.heap d.entry.timer (some (t.restart now))) d.entry.timer =
        some (t.restart now) := Function.update_self _ _ _
    have number' : (t.restart now).sequence_ = t.sequence_ := rfl
    obtain ⟨q₁, changed, inserts, inserted⟩ := insert_spec (owned.rekey here number') there
    simp only [if_pos again, inserts, ok_bind, pure_eq_ok] at ran
    obtain rfl : q₁ = q' := Except.ok.inj ran
    have heap : q₁.heap = Function.update q.heap d.entry.timer (some (t.restart now)) := by
      rw [inserted.frame]
    have active : ∀ id, id ∈ q₁.activeTimers_ ↔ id = d.id ∨ id ∈ q.activeTimers_ := by
      rw [← name]
      exact inserted.active
    refine ⟨fun _ _ => ⟨?_, (active _).mpr (Or.inl rfl)⟩, fun other => absurd again other,
      ?_, ?_, ?_⟩
    · rw [heap]
      exact there
    · intro b other
      rw [heap]
      exact Function.update_of_ne other _ _
    · intro id other
      rw [active]
      refine or_iff_right ?_
      rintro rfl
      exact other rfl
    · intro f other
      rw [inserted.timers]
      refine or_iff_right ?_
      rintro rfl
      exact other rfl
  · simp only [if_neg again, delete_live here] at ran
    obtain rfl := Except.ok.inj ran
    exact ⟨fun repeats kept => absurd ⟨repeats, kept⟩ again, fun _ => Function.update_self _ _ _,
      fun b other => Function.update_of_ne other _ _, fun _ _ => Iff.rfl, fun _ _ => Iff.rfl⟩

/-- What reset() makes of the batch. -/
structure Renewed (now : Int) (q : TimerQueue) (ds : List Due) (q' : TimerQueue) : Prop where
  again : ∀ d ∈ ds, ∀ t, q.heap d.entry.timer = some t → t.repeat_ = true →
    d.id ∉ q.cancelingTimers_ →
    q'.heap d.entry.timer = some (t.restart now) ∧ d.id ∈ q'.activeTimers_
  gone : ∀ d ∈ ds, ∀ t, q.heap d.entry.timer = some t →
    ¬(t.repeat_ = true ∧ d.id ∉ q.cancelingTimers_) → q'.heap d.entry.timer = none
  heap : ∀ b, b ∉ addresses ds → q'.heap b = q.heap b
  active : ∀ id, id.timer_ ∉ addresses ds → (id ∈ q'.activeTimers_ ↔ id ∈ q.activeTimers_)
  timers : ∀ e, e.timer ∉ addresses ds → (e ∈ q'.timers_ ↔ e ∈ q.timers_)

theorem addresses_cons (d : Due) (ds : List Due) :
    addresses (d :: ds) = d.entry.timer :: addresses ds := rfl

theorem reset_fold_renews (owned : Owned q (addresses ds ++ batch) fresh)
    (live : ∀ d ∈ ds, q.Live d.id)
    (ran : (ds.map Due.entry).foldlM (restartOrDelete now) q = .ok q') : Renewed now q ds q' := by
  induction ds generalizing q with
  | nil =>
    obtain rfl := Except.ok.inj ran
    exact ⟨by simp, by simp, fun _ _ => rfl, fun _ _ => Iff.rfl, fun _ _ => Iff.rfl⟩
  | cons d ds ih =>
    simp only [List.map_cons, List.foldlM_cons] at ran
    obtain ⟨q₁, first, rest⟩ := bind_eq_ok.mp ran
    obtain ⟨t, here, number⟩ := live d List.mem_cons_self
    have here : q.heap d.entry.timer = some t := here
    have unused : d.entry.timer ∉ addresses ds := by
      have nodup := owned.distinct
      rw [addresses_cons] at nodup
      simp only [List.cons_append, List.nodup_cons, List.mem_append, not_or] at nodup
      exact nodup.1.1.1
    have elsewhere : ∀ d' ∈ ds, d'.entry.timer ≠ d.entry.timer := by
      intro d' member place
      apply unused
      rw [← place]
      exact List.mem_map_of_mem (List.mem_map_of_mem member)
    obtain ⟨q₂, same, owned₁, turned, others, -⟩ := restartOrDelete_spec now owned here
    obtain rfl : q₁ = q₂ := Except.ok.inj (first.symm.trans same)
    have renewed := restartOrDelete_renews owned here number first
    have later := ih owned₁ (by
      intro d' member
      exact (others d'.id (elsewhere d' member)).mpr (live d' (List.mem_cons_of_mem d member))) rest
    refine ⟨?_, ?_, ?_, ?_, ?_⟩
    · intro d' member u there repeats kept
      rcases List.mem_cons.mp member with rfl | member
      · obtain rfl : t = u := Option.some.inj (here.symm.trans there)
        obtain ⟨back, active⟩ := renewed.again repeats kept
        exact ⟨(later.heap _ unused).trans back, (later.active _ unused).mpr active⟩
      · refine later.again d' member u ?_ repeats (turned.canceling ▸ kept)
        rw [renewed.heap _ (elsewhere d' member)]
        exact there
    · intro d' member u there ends
      rcases List.mem_cons.mp member with rfl | member
      · obtain rfl : t = u := Option.some.inj (here.symm.trans there)
        exact (later.heap _ unused).trans (renewed.gone ends)
      · refine later.gone d' member u ?_ (turned.canceling ▸ ends)
        rw [renewed.heap _ (elsewhere d' member)]
        exact there
    · intro b outside
      rw [addresses_cons, List.mem_cons, not_or] at outside
      rw [later.heap b outside.2, renewed.heap b outside.1]
    · intro id outside
      rw [addresses_cons, List.mem_cons, not_or] at outside
      rw [later.active id outside.2, renewed.active id outside.1]
    · intro e outside
      rw [addresses_cons, List.mem_cons, not_or] at outside
      rw [later.timers e outside.2, renewed.timers e outside.1]

theorem finishExpired_renews (owned : Owned q (addresses ds) fresh) (live : ∀ d ∈ ds, q.Live d.id)
    (ran : q.finishExpired ds now clock = .ok q') :
    Renewed now q ds q' := by
  let idle : TimerQueue := { q with callingExpiredTimers_ := false }
  have owned : Owned idle (addresses ds ++ []) fresh := by
    rw [List.append_nil]
    exact owned.of_same rfl rfl rfl rfl rfl
  simp only [finishExpired, reset] at ran
  obtain ⟨q₁, folded, ran⟩ := bind_eq_ok.mp ran
  obtain ⟨next, -, ran⟩ := bind_eq_ok.mp ran
  have renewed := reset_fold_renews owned live folded
  obtain rfl := Except.ok.inj ran
  split
  · rw [resetTimerfd_arms]
    exact ⟨renewed.again, renewed.gone, renewed.heap, renewed.active, renewed.timers⟩
  · exact ⟨renewed.again, renewed.gone, renewed.heap, renewed.active, renewed.timers⟩

section Runs
variable {s u : State} {l : Label}

theorem handleRead_ran (sound : Sound s) (taken : step s (.handleRead now) = some u) :
    ∃ ds, s.calling = none ∧ s.queue.takeExpired now = .ok (u.queue, ds) ∧
      u.calling = some ⟨now, ds, ds, false⟩ := by
  obtain ⟨-, result, acted, rfl⟩ := faults.performed_of_step taken
  simp only [act, Option.ite_none_right_eq_some, Option.some.injEq] at acted
  obtain ⟨⟨idle, -⟩, rfl⟩ := acted
  have owned := sound.owned
  simp only [batchOf, idle, Option.elim_none] at owned
  obtain ⟨q, ds, runs, -, -⟩ := takeExpired_spec now owned
  refine ⟨ds, idle, ?_, ?_⟩
  · simp only [runs, ok_bind, pure_eq_ok, Faults.settle]
  · simp only [runs, ok_bind, pure_eq_ok, Faults.settle]

theorem endHandleRead_ran (sound : Sound s) (taken : step s (.endHandleRead clock) = some u) :
    ∃ now expired, s.calling = some ⟨now, expired, [], false⟩ ∧ u.calling = none ∧
      s.queue.finishExpired expired now clock = .ok u.queue := by
  obtain ⟨-, result, acted, rfl⟩ := faults.performed_of_step taken
  simp only [act] at acted
  split at acted
  case h_1 now expired calling =>
    cases acted
    have owned := sound.owned
    simp only [batchOf, calling, Option.elim_some] at owned
    obtain ⟨q, runs, -, -⟩ := finishExpired_spec now clock owned (sound.due _ calling)
    refine ⟨now, expired, calling, ?_, ?_⟩
    · simp only [runs, ok_bind, pure_eq_ok, Faults.settle]
    · simp only [runs, ok_bind, pure_eq_ok, Faults.settle]
  case h_2 => cases acted

theorem endHandleRead_renews (sound : Sound s) (taken : step s (.endHandleRead clock) = some u) :
    ∃ now expired, s.calling = some ⟨now, expired, [], false⟩ ∧ u.calling = none ∧
      Renewed now s.queue expired u.queue := by
  obtain ⟨now, expired, calling, idle, ran⟩ := endHandleRead_ran sound taken
  have owned := sound.owned
  simp only [batchOf, calling, Option.elim_some] at owned
  exact ⟨now, expired, calling, idle, finishExpired_renews owned (sound.due _ calling) ran⟩

theorem heap_of_batch {c : Calling} (sound : Sound s) (calling : s.calling = some c)
    (taken : step s l = some u) (going : ∀ clock, l ≠ .endHandleRead clock) {d : Due}
    (member : d ∈ c.expired) : u.queue.heap d.entry.timer = s.queue.heap d.entry.timer := by
  obtain ⟨t, here, number⟩ := sound.due c calling d member
  have here : s.queue.heap d.entry.timer = some t := here
  have occupied : ∀ {a when_ interval}, s.queue.Free a →
      (s.queue.create a when_ interval).heap d.entry.timer = s.queue.heap d.entry.timer := by
    intro a when_ interval free
    apply Function.update_of_ne
    rintro rfl
    rw [free.1] at here
    cases here
  have spared : ∀ {id known q}, Cancelled s.queue id known q →
      q.heap d.entry.timer = s.queue.heap d.entry.timer := by
    intro id known q cancelled
    cases cancelled with
    | removed was timers =>
      apply Function.update_of_ne
      intro place
      have loose := List.mem_append_left ((freshOf s).map TimerId.timer_) (mem_batchOf calling member)
      have place : d.id.timer_ = id.timer_ := place
      rw [place] at loose
      exact sound.owned.not_loose was loose
    | noted absent flag => rfl
    | ignored absent flag => rfl
  cases stepped sound taken with
  | newTimer free => exact occupied free
  | addTimer free owned added =>
    simp only [note, added.heap]
    exact occupied free
  | cancel owned cancelled => exact spared cancelled
  | runCancel phase next owned cancelled => exact spared cancelled
  | handleRead idle events owned expired =>
    rw [idle] at calling
    cases calling
  | @endHandleRead now clock expired q here owned finished => exact absurd rfl (going clock)
  | runAdd phase next here number owned added => rw [added.heap]
  | pushAdd _ | addReturns _ | pushCancel | fire _ | run _ | callbackReturns _ | swapFunctors _ _
  | endFunctors _ _ => rfl

def BatchOrderly (s : State) : Prop := ∀ c, s.calling = some c → Orderly s.queue c

theorem orderly_progress {c c' : Calling} (orderly : Orderly q c) (batch : c'.expired = c.expired)
    (now : c'.now = c.now) (turns : ∃ done, c.left = done ++ c'.left)
    (heap : ∀ d ∈ c.expired, q'.heap d.entry.timer = q.heap d.entry.timer) : Orderly q' c' where
  ordered := by
    rw [batch]
    exact orderly.ordered
  due := by
    rw [batch, now]
    exact orderly.due
  kept := by
    rw [batch]
    intro d member
    rw [heap d member]
    exact orderly.kept d member
  turns := by
    obtain ⟨done, whole⟩ := orderly.turns
    obtain ⟨more, rest⟩ := turns
    exact ⟨done ++ more, by rw [batch, whole, rest, List.append_assoc]⟩

theorem batchOrderly_step (sound : Sound s) (orderly : BatchOrderly s)
    (taken : step s l = some u) : BatchOrderly u := by
  have going : ∀ {c c'}, s.calling = some c → (∀ clock, l ≠ .endHandleRead clock) →
      c'.expired = c.expired → c'.now = c.now → (∃ done, c.left = done ++ c'.left) →
      Orderly u.queue c' := by
    intro c c' calling going batch now turns
    exact orderly_progress (orderly c calling) batch now turns
      fun d => heap_of_batch sound calling taken going
  intro c' here
  cases stepped sound taken with
  | handleRead idle events owned expired =>
    obtain ⟨ds, -, ran, calling⟩ := handleRead_ran sound taken
    cases here
    cases calling
    have owned := sound.owned
    simp only [batchOf, idle, Option.elim_none] at owned
    exact orderly_of_taken owned ran expired
  | run calling =>
    cases here
    exact going calling (by simp) rfl rfl ⟨[_], rfl⟩
  | callbackReturns calling =>
    cases here
    exact going calling (by simp) rfl rfl ⟨[], rfl⟩
  | endHandleRead calling owned finished => cases here
  | newTimer _ | pushAdd _ | addReturns _ | pushCancel | addTimer _ _ _ | cancel _ _ | fire _
  | swapFunctors _ _ | runAdd _ _ _ _ _ _ | runCancel _ _ _ _ | endFunctors _ _ =>
    exact going here (by simp) rfl rfl ⟨[], rfl⟩

theorem repeat_of_step {v : Timer} (sound : Sound s) (taken : step s l = some u)
    (after : u.queue.heap a = some v) (old : v.sequence_ ≤ s.queue.numCreated) :
    ∃ t, s.queue.heap a = some t ∧ t.sequence_ = v.sequence_ ∧ t.repeat_ = v.repeat_ := by
  have created : ∀ {b when_ interval}, (s.queue.create b when_ interval).heap a = some v →
      s.queue.heap a = some v := by
    intro b when_ interval there
    by_cases place : a = b
    · subst place
      simp only [create, Function.update_self, Option.some.injEq] at there
      subst there
      simp only [Timer.new] at old
      omega
    · simpa only [create, Function.update_of_ne place] using there
  have spared : ∀ {id known q}, Cancelled s.queue id known q → q.heap a = some v →
      s.queue.heap a = some v := by
    intro id known q cancelled there
    cases cancelled with
    | removed was timers =>
      by_cases place : a = id.timer_
      · simp [place] at there
      · simpa only [Function.update_of_ne place] using there
    | noted absent flag => exact there
    | ignored absent flag => exact there
  have same : s.queue.heap a = some v →
      ∃ t, s.queue.heap a = some t ∧ t.sequence_ = v.sequence_ ∧ t.repeat_ = v.repeat_ :=
    fun here => ⟨v, here, rfl, rfl⟩
  cases stepped sound taken with
  | newTimer free => exact same (created after)
  | addTimer free owned added =>
    simp only [note, added.heap] at after
    exact same (created after)
  | cancel owned cancelled => exact same (spared cancelled after)
  | runCancel phase next owned cancelled => exact same (spared cancelled after)
  | handleRead idle events owned expired =>
    rw [expired.heap] at after
    exact same after
  | runAdd phase next here number owned added =>
    rw [added.heap] at after
    exact same after
  | @endHandleRead now clock expired q calling owned finished =>
    obtain ⟨now', expired', calling', -, renewed⟩ := endHandleRead_renews sound taken
    cases calling.symm.trans calling'
    by_cases inside : a ∈ addresses expired
    · obtain ⟨e, listed, rfl⟩ := List.mem_map.mp inside
      obtain ⟨d, member, rfl⟩ := List.mem_map.mp listed
      obtain ⟨t, here, number⟩ := sound.due _ calling d member
      have here : s.queue.heap d.entry.timer = some t := here
      refine ⟨t, here, ?_⟩
      by_cases again : t.repeat_ = true ∧ d.id ∉ s.queue.cancelingTimers_
      · have back := (renewed.again d member t here again.1 again.2).1
        cases back.symm.trans after
        exact ⟨rfl, rfl⟩
      · cases (renewed.gone d member t here again).symm.trans after
    · exact same ((renewed.heap a inside).symm.trans after)
  | pushAdd _ | addReturns _ | pushCancel | fire _ | run _ | callbackReturns _ | swapFunctors _ _
  | endFunctors _ _ => exact same after

def OneShot (q : TimerQueue) (id : TimerId) : Prop :=
  ∀ t, q.heap id.timer_ = some t → t.sequence_ = id.sequence_ → t.repeat_ = false

def Spent (s : State) (id : TimerId) : Prop := Dead s.queue id ∨ InBatch s id ∧ id ∉ leftOf s

structure StartedOnce (s : State) (id : TimerId) : Prop where
  number : id.sequence_ ≤ s.queue.numCreated
  oneShot : OneShot s.queue id
  once : s.queue.journal.count (.started id) ≤ 1
  spent : 0 < s.queue.journal.count (.started id) → Spent s id

theorem oneShot_step (sound : Sound s) (taken : step s l = some u)
    (number : id.sequence_ ≤ s.queue.numCreated) (oneShot : OneShot s.queue id) :
    OneShot u.queue id := by
  intro v there same
  obtain ⟨t, here, number', again⟩ := repeat_of_step sound taken there (by rw [same]; exact number)
  rw [← again]
  exact oneShot t here (number'.trans same)

theorem spent_step (sound : Sound s) (taken : step s l = some u) (oneShot : OneShot s.queue id)
    (spent : Spent s id) : Spent u id := by
  rcases spent with dead | ⟨batch, behind⟩
  · exact Or.inl (dead_step sound taken dead)
  · have batch' := batch
    obtain ⟨c, calling, member⟩ := batch
    cases stepped sound taken with
    | handleRead idle events owned expired =>
      rw [idle] at calling
      cases calling
    | run here =>
      rw [here] at calling
      cases calling
      simp only [leftOf, here, Option.elim_some, List.map_cons, List.mem_cons, not_or] at behind
      exact Or.inr ⟨⟨_, rfl, member⟩, behind.2⟩
    | callbackReturns here =>
      rw [here] at calling
      cases calling
      simp only [leftOf, here, Option.elim_some] at behind
      exact Or.inr ⟨⟨_, rfl, member⟩, behind⟩
    | @endHandleRead now clock expired q here owned finished =>
      obtain ⟨now', expired', calling', -, renewed⟩ := endHandleRead_renews sound taken
      cases here.symm.trans calling'
      cases here.symm.trans calling
      obtain ⟨d, listed, rfl⟩ := List.mem_map.mp member
      obtain ⟨t, there, number⟩ := sound.due _ here d listed
      have ends : ¬(t.repeat_ = true ∧ d.id ∉ s.queue.cancelingTimers_) := by
        rintro ⟨repeats, -⟩
        cases repeats.symm.trans (oneShot t there number)
      have gone : q.heap d.entry.timer = none := renewed.gone d listed t there ends
      refine Or.inl ⟨?_, ?_⟩
      · rintro ⟨v, after, -⟩
        cases gone.symm.trans after
      · rw [finished.numCreated]
        exact numbered_of_live sound.owned ⟨t, there, number⟩
    | newTimer _ | pushAdd _ | addReturns _ | pushCancel | addTimer _ _ _ | cancel _ _ | fire _
    | swapFunctors _ _ | runAdd _ _ _ _ _ _ | runCancel _ _ _ _ | endFunctors _ _ =>
      exact Or.inr ⟨batch', behind⟩

theorem count_append_plain {xs ms : List Moment} (unstarted : .started id ∉ ms) :
    (xs ++ ms).count (.started id) = xs.count (.started id) := by
  rw [List.count_append, List.count_eq_zero.mpr unstarted, Nat.add_zero]

theorem count_started (sound : Sound s) (taken : step s l = some u) (other : l ≠ .run) :
    u.queue.journal.count (.started id) = s.queue.journal.count (.started id) := by
  have cancelled : ∀ {x known q}, Cancelled s.queue x known q →
      q.journal.count (.started id) = s.queue.journal.count (.started id) := by
    intro x known q cancelled
    cases cancelled with
    | removed was timers =>
      simp only [List.append_assoc]
      exact count_append_plain (by simp)
    | noted absent flag => exact count_append_plain (by simp)
    | ignored absent flag => exact count_append_plain (by simp)
  cases stepped sound taken with
  | run _ => exact absurd rfl other
  | addReturns member => exact count_append_plain (by simp)
  | addTimer free owned added =>
    simp only [note, added.journal, create, List.append_assoc]
    exact count_append_plain (by simp)
  | cancel owned done => exact cancelled done
  | runCancel phase next owned done => exact cancelled done
  | handleRead idle events owned expired => rw [expired.journal]
  | endHandleRead calling owned finished =>
    obtain ⟨more, journal, deletes⟩ := finished.journal
    simp only [journal]
    apply count_append_plain
    intro member
    obtain ⟨x, same⟩ := deletes _ member
    cases same
  | runAdd phase next here number owned added =>
    simp only [added.journal]
    exact count_append_plain (by simp)
  | newTimer _ | pushAdd _ | pushCancel | fire _ | callbackReturns _ | swapFunctors _ _
  | endFunctors _ _ => rfl

theorem run_starts (sound : Sound s) (orderly : BatchOrderly s) (taken : step s .run = some u) :
    ∃ c d left, s.calling = some c ∧ c.left = d :: left ∧
      u.queue.journal = s.queue.journal ++ [.started d.id] ∧ d.id ∈ leftOf s ∧ Spent u d.id := by
  cases stepped sound taken with
  | @run now expired left d calling =>
    refine ⟨_, d, left, calling, rfl, rfl, by simp [leftOf, calling], Or.inr ⟨⟨_, rfl, ?_⟩, ?_⟩⟩
    · exact List.mem_map_of_mem (sound.left _ calling d List.mem_cons_self)
    · obtain ⟨done, whole⟩ := (orderly _ calling).turns
      have distinct := sound.owned.distinct
      simp only [batchOf, calling, Option.elim_some] at distinct whole
      rw [whole] at distinct
      simp only [addresses, List.map_append, List.map_cons, List.append_assoc] at distinct
      have rest := (List.nodup_append.mp distinct).2.1
      simp only [List.cons_append, List.nodup_cons, List.mem_append, not_or] at rest
      intro again
      obtain ⟨d', member, same⟩ := List.mem_map.mp again
      have place : d'.entry.timer = d.entry.timer := congrArg TimerId.timer_ same
      apply rest.1.1
      rw [← place]
      exact List.mem_map_of_mem (List.mem_map_of_mem member)

theorem startedOnce_quiet (once : StartedOnce s id) (number : id.sequence_ ≤ u.queue.numCreated)
    (oneShot : OneShot u.queue id) (kept : Spent s id → Spent u id)
    (count : u.queue.journal.count (.started id) = s.queue.journal.count (.started id)) :
    StartedOnce u id := by
  refine ⟨number, oneShot, ?_, ?_⟩
  · rw [count]
    exact once.once
  · intro started
    rw [count] at started
    exact kept (once.spent started)

theorem startedOnce_step (sound : Sound s) (orderly : BatchOrderly s)
    (once : StartedOnce s id) (taken : step s l = some u) : StartedOnce u id := by
  have number : id.sequence_ ≤ u.queue.numCreated :=
    once.number.trans (numCreated_grows sound taken)
  have oneShot := oneShot_step sound taken once.number once.oneShot
  have kept : Spent s id → Spent u id := spent_step sound taken once.oneShot
  by_cases other : l = .run
  · subst other
    obtain ⟨c, d, left, calling, -, journal, next, spent⟩ := run_starts sound orderly taken
    by_cases mine : d.id = id
    · subst mine
      have unstarted : s.queue.journal.count (.started d.id) = 0 := by
        by_contra started
        rcases once.spent (Nat.pos_of_ne_zero started) with dead | ⟨-, behind⟩
        · simp only [leftOf, calling, Option.elim_some] at next
          obtain ⟨d', member, same⟩ := List.mem_map.mp next
          have live := sound.due c calling d' (sound.left c calling d' member)
          rw [same] at live
          exact dead.1 live
        · exact behind next
      have count : u.queue.journal.count (.started d.id) = 1 := by
        rw [journal, List.count_append, unstarted, List.count_singleton_self]
      exact ⟨number, oneShot, by rw [count], fun _ => spent⟩
    · refine startedOnce_quiet once number oneShot kept ?_
      rw [journal]
      exact count_append_plain (by simpa [eq_comm] using mine)
  · exact startedOnce_quiet once number oneShot kept (count_started sound taken other)

structure Timely (s : State) : Prop where
  sound : Sound s
  orderly : BatchOrderly s
  numbered : ∀ id, 0 < s.queue.journal.count (.started id) → id.sequence_ ≤ s.queue.numCreated
  once : ∀ id t, s.queue.heap id.timer_ = some t → t.sequence_ = id.sequence_ →
    t.repeat_ = false → StartedOnce s id

theorem numbered_step (timely : Timely s) (taken : step s l = some u)
    (started : 0 < u.queue.journal.count (.started id)) : id.sequence_ ≤ s.queue.numCreated := by
  by_cases other : l = .run
  · subst other
    obtain ⟨c, d, left, calling, front, journal, -, -⟩ :=
      run_starts timely.sound timely.orderly taken
    by_cases mine : d.id = id
    · subst mine
      have member := timely.sound.left c calling d (by simp [front])
      exact numbered_of_live timely.sound.owned (timely.sound.due c calling d member)
    · rw [journal, count_append_plain (by simpa [eq_comm] using mine)] at started
      exact timely.numbered id started
  · rw [count_started timely.sound taken other] at started
    exact timely.numbered id started

theorem startedOnce_new (timely : Timely s) (taken : step s l = some u)
    (new : s.queue.numCreated < id.sequence_) (number : id.sequence_ ≤ u.queue.numCreated)
    (oneShot : OneShot u.queue id) : StartedOnce u id := by
  have unstarted : ¬0 < u.queue.journal.count (.started id) := by
    intro started
    have old := numbered_step timely taken started
    omega
  exact ⟨number, oneShot, by omega, fun started => absurd started unstarted⟩

theorem timely_step (timely : Timely s) (taken : step s l = some u) : Timely u := by
  have sound := sound_step timely.sound taken
  refine ⟨sound, batchOrderly_step timely.sound timely.orderly taken, ?_, ?_⟩
  · intro id started
    exact (numbered_step timely taken started).trans (numCreated_grows timely.sound taken)
  · intro id v there same single
    have oneShot : OneShot u.queue id := by
      intro w here _
      cases there.symm.trans here
      exact single
    have number := numbered_of_live sound.owned ⟨v, there, same⟩
    by_cases old : id.sequence_ ≤ s.queue.numCreated
    · obtain ⟨t, here, number', again⟩ :=
        repeat_of_step timely.sound taken there (by rw [same]; exact old)
      exact startedOnce_step timely.sound timely.orderly
        (timely.once id t here (number'.trans same) (again.trans single)) taken
    · exact startedOnce_new timely taken (not_le.mp old) number oneShot

theorem timely_init : Timely init where
  sound := sound_init
  orderly c calling := by cases calling
  numbered id started := by cases started
  once id t here := by cases here

theorem timely_run {ls : List Label} (ran : machine.run init ls = some s) : Timely s :=
  machine.run_invariant (fun _ _ _ => timely_step) timely_init ran

theorem startedOnce_run {ls : List Label} (timely : Timely s) (once : StartedOnce s id)
    (ran : machine.run s ls = some u) : StartedOnce u id := by
  have kept : ∀ s l u, Timely s ∧ StartedOnce s id → step s l = some u →
      Timely u ∧ StartedOnce u id := by
    rintro s l u ⟨timely, once⟩ taken
    exact ⟨timely_step timely taken, startedOnce_step timely.sound timely.orderly once taken⟩
  exact (machine.run_invariant kept ⟨timely, once⟩ ran).2

theorem renewed_entry {expired : List Due} {d : Due} (sound : Sound u)
    (renewed : Renewed now s.queue expired u.queue) (member : d ∈ expired)
    (here : s.queue.heap d.entry.timer = some t) (repeats : t.repeat_ = true)
    (kept : d.id ∉ s.queue.cancelingTimers_) :
    ∃ e ∈ u.queue.timers_, e.timer = d.entry.timer ∧ now ≤ e.when_ ∧
      ∀ f ∈ u.queue.timers_, f.timer = d.entry.timer → f = e := by
  obtain ⟨back, active⟩ := renewed.again d member t here repeats kept
  obtain ⟨v, there, -, entry⟩ := sound.owned.entry_of_active active
  have there : u.queue.heap d.entry.timer = some v := there
  cases back.symm.trans there
  refine ⟨_, entry, rfl, restart_not_before repeats, ?_⟩
  intro f other place
  obtain ⟨w, there', same, -⟩ := sound.owned.live_of_entry other
  rw [place, back] at there'
  cases there'
  exact Entry.key_injective (by simp [same, place, Due.id])

end Runs

/-- getExpired cuts any owned queue exactly at `now`. In every run the batch is due and in
    order and its callbacks are started from the front; a one-shot Timer is started at most
    once; and the end of handleRead leaves a repeating Timer that was not cancelled with
    exactly one entry, not before `now` as long as addTime does not overflow. -/
theorem expired_timers_are_the_due_ones :
    (∀ (q : TimerQueue) (batch fresh : List Nat) (now : Int), Owned q batch fresh →
      ∃ q' es, q.getExpired now = .ok (q', es) ∧ Cut q now q' es) ∧
    ∀ (ls : List Label) (s : State), machine.run init ls = some s →
      (∀ now u, step s (.handleRead now) = some u → ∃ q' ds,
        s.queue.readTimerfd.getExpired now = .ok (q', ds.map Due.entry) ∧
        u.calling = some ⟨now, ds, ds, false⟩) ∧
      (∀ c, s.calling = some c → Orderly s.queue c) ∧
      (∀ u, step s .run = some u → ∃ c d left, s.calling = some c ∧ c.left = d :: left ∧
        u.queue.journal = s.queue.journal ++ [.started d.id]) ∧
      (∀ id t, s.queue.heap id.timer_ = some t → t.sequence_ = id.sequence_ → t.repeat_ = false →
        ∀ ks u, machine.run s ks = some u → u.queue.journal.count (.started id) ≤ 1) ∧
      ∀ clock u, step s (.endHandleRead clock) = some u → ∃ now expired,
        s.calling = some ⟨now, expired, [], false⟩ ∧
        ∀ d ∈ expired, ∀ t, s.queue.heap d.entry.timer = some t → t.repeat_ = true →
          d.id ∉ s.queue.cancelingTimers_ →
          (∀ e ∈ s.queue.timers_, e.timer ≠ d.entry.timer) ∧
          ∃ e ∈ u.queue.timers_, e.timer = d.entry.timer ∧ now ≤ e.when_ ∧
            ∀ f ∈ u.queue.timers_, f.timer = d.entry.timer → f = e := by
  refine ⟨fun q batch fresh now owned => getExpired_cuts now owned, ?_⟩
  intro ls s ran
  have timely := timely_run ran
  have sound := timely.sound
  refine ⟨?_, timely.orderly, ?_, ?_, ?_⟩
  · intro now u taken
    obtain ⟨ds, -, ran, calling⟩ := handleRead_ran sound taken
    obtain ⟨q', cut⟩ := takeExpired_ran ran
    exact ⟨q', ds, cut, calling⟩
  · intro u taken
    obtain ⟨c, d, left, calling, front, journal, -, -⟩ := run_starts sound timely.orderly taken
    exact ⟨c, d, left, calling, front, journal⟩
  · intro id t here same single ks u more
    exact (startedOnce_run timely (timely.once id t here same single) more).once
  · intro clock u taken
    obtain ⟨now, expired, calling, -, renewed⟩ := endHandleRead_renews sound taken
    refine ⟨now, expired, calling, ?_⟩
    intro d member t here repeats kept
    refine ⟨?_, renewed_entry (sound_step sound taken) renewed member here repeats kept⟩
    intro e entry place
    obtain ⟨v, there, -, active⟩ := sound.owned.live_of_entry entry
    have loose : e.timer ∈ batchOf s := by
      rw [place]
      exact mem_batchOf calling member
    exact sound.owned.not_loose active (List.mem_append_left _ loose)

def tiedRun : List Label :=
  [.addTimer 2000 10 everySeven 1, .addTimer 1000 10 once 2, .addTimer 3000 40 once 3, .fire,
    .handleRead 12, .run, .callbackReturns, .run, .callbackReturns]

theorem expired_timers_are_the_due_ones_in_tiedRun :
    (∃ q' es, init.queue.getExpired 12 = .ok (q', es) ∧ Cut init.queue 12 q' es) ∧
    ∃ s u, machine.run init tiedRun = some s ∧ step s (.endHandleRead 13) = some u ∧
      s.queue.journal.filter (fun m => m = .started ⟨1000, 2⟩ ∨ m = .started ⟨2000, 1⟩) =
        [.started ⟨1000, 2⟩, .started ⟨2000, 1⟩] ∧
      u.queue.journal.count (.started ⟨1000, 2⟩) ≤ 1 ∧
      ∃ e ∈ u.queue.timers_, e.timer = 2000 ∧ 12 ≤ e.when_ ∧
        ∀ f ∈ u.queue.timers_, f.timer = 2000 → f = e := by
  obtain ⟨cuts, runs⟩ := expired_timers_are_the_due_ones
  refine ⟨cuts init.queue [] [] 12 owned_init, ?_⟩
  have outcome : (machine.run init tiedRun).map (fun s =>
      (s.calling, (s.queue.heap 2000).map Timer.repeat_,
        (s.queue.heap 1000).map fun t => (t.repeat_, t.sequence_))) =
      some (some ⟨12, [⟨⟨10, 1000⟩, 2⟩, ⟨⟨10, 2000⟩, 1⟩], [], false⟩, some true, some (false, 2)) := by
    decide +kernel
  have started : (machine.run init tiedRun).map (fun s => (s.queue.cancelingTimers_.elems,
      s.queue.journal.filter fun m => m = .started ⟨1000, 2⟩ ∨ m = .started ⟨2000, 1⟩)) =
      some ([], [.started ⟨1000, 2⟩, .started ⟨2000, 1⟩]) := by decide +kernel
  have ends : ((machine.run init tiedRun).bind fun s => step s (.endHandleRead 13)).isSome = true := by
    decide +kernel
  obtain ⟨s, reached, facts⟩ := Option.map_eq_some_iff.mp outcome
  rw [reached, Option.map_some, Option.some.injEq, Prod.mk.injEq] at started
  rw [reached, Option.bind_some] at ends
  obtain ⟨u, taken⟩ := Option.isSome_iff_exists.mp ends
  simp only [Prod.mk.injEq] at facts
  obtain ⟨calling, again, single⟩ := facts
  obtain ⟨t, here, repeats⟩ := Option.map_eq_some_iff.mp again
  obtain ⟨v, there, fields⟩ := Option.map_eq_some_iff.mp single
  obtain ⟨-, -, -, once, renewed⟩ := runs tiedRun s reached
  obtain ⟨now, expired, calling', back⟩ := renewed 13 u taken
  cases calling.symm.trans calling'
  have uncancelled : (⟨2000, 1⟩ : TimerId) ∉ s.queue.cancelingTimers_ := by
    intro member
    have member : (⟨2000, 1⟩ : TimerId) ∈ s.queue.cancelingTimers_.elems := member
    rw [started.1] at member
    cases member
  refine ⟨s, u, reached, taken, started.2, ?_,
    (back ⟨⟨10, 2000⟩, 1⟩ (by simp) t here repeats uncancelled).2⟩
  exact once ⟨1000, 2⟩ v there (Prod.mk.inj fields).2 (Prod.mk.inj fields).1
    [.endHandleRead 13] u (by simp [Machine.run, machine, taken])

end TimerQueue
end Muduo
