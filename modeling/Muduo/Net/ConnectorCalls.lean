import Muduo.Net.ConnectorSockets

/-!
The assertions of the connector. At any time at most one attempt is under way: a retry
timer, a queued startInLoop, or a state that is not kDisconnected. This holds as long as
start() is called at rest only, which stop() does not bring about by itself: it leaves the
retry timer, a state kConnecting until stopInLoop has run, the channel until resetChannel
has run, and the state kConnected for good.
-/
namespace Muduo
open Lib
namespace Connector
variable {s t : Connector} {l : Label} {savedErrno : Errno} {channel : Channel}

structure AtRest (s : Connector) : Prop where
  state : s.state_ = .kDisconnected
  channel : s.channel_ = none
  timers : s.timers = []
  starts : .startInLoop ∉ s.queue.waiting

instance (s : Connector) : Decidable (AtRest s) :=
  decidable_of_iff (s.state_ = .kDisconnected ∧ s.channel_ = none ∧ s.timers = [] ∧
      .startInLoop ∉ s.queue.waiting)
    ⟨fun ⟨state, channel, timers, starts⟩ => ⟨state, channel, timers, starts⟩,
      fun rest => ⟨rest.state, rest.channel, rest.timers, rest.starts⟩⟩

/-- start() is called at rest, restart() after the connection that was handed over has
    closed, and no retry timer fires while a resetChannel is queued. -/
def Orderly (s : Connector) : Label → Prop
  | .start .. => AtRest s
  | .restart _ => s.connection = .closed
  | .timer .. => .resetChannel ∉ s.queue.waiting
  | _ => True

instance (s : Connector) (l : Label) : Decidable (Orderly s l) :=
  match l with
  | .start .. => inferInstanceAs (Decidable (AtRest s))
  | .restart _ => inferInstanceAs (Decidable (s.connection = .closed))
  | .timer .. => inferInstanceAs (Decidable (.resetChannel ∉ s.queue.waiting))
  | .stop | .poll _ | .event .. | .swap | .functor _ | .connectionClosed => isTrue trivial

def busy (s : Connector) : Nat := if s.state_ = .kDisconnected then 0 else 1

structure Calm (s : Connector) : Prop where
  running : s.fault = none
  sound : Sound s
  one : s.timers.length + s.queue.waiting.count .startInLoop + busy s ≤ 1
  queued : .startInLoop ∈ s.queue.waiting → s.channel_ = none
  dispatched : s.active = true → s.phase = .events ∧ s.state_ = .kConnecting
  handed : s.connection ≠ .absent → s.state_ = .kConnected
  past : s.connection = .established ∨ s.connection = .closed → s.channel_ = none

structure Vacant (s : Connector) : Prop where
  running : s.fault = none
  sound : Sound s
  rest : AtRest s
  inactive : s.active = false
  absent : s.connection = .absent

theorem vacant_calm (vacant : Vacant s) : Calm s where
  running := vacant.running
  sound := vacant.sound
  one := by
    simp [vacant.rest.timers, List.count_eq_zero_of_not_mem vacant.rest.starts, busy,
      vacant.rest.state]
  queued := fun _ => vacant.rest.channel
  dispatched := by simp [vacant.inactive]
  handed := by simp [vacant.absent]
  past := fun _ => vacant.rest.channel

theorem vacant_start (vacant : Vacant s) (savedErrno : Errno) :
    ∃ t, s.startInLoop savedErrno = .ok t ∧ Calm t := by
  obtain ⟨running, sound, ⟨state, free, timers, starts⟩, inactive, absent⟩ := vacant
  have none_ := List.count_eq_zero_of_not_mem starts
  rcases startInLoop_spec state savedErrno with ⟨-, -, held, -⟩ | ⟨t, ran, started⟩
  · exact absurd free held
  · refine ⟨t, ran, ?_⟩
    have sound' := started_sound sound state started
    cases started with
    | skipped => exact vacant_calm ⟨running, sound, ⟨state, free, timers, starts⟩, inactive, absent⟩
    | connecting =>
      refine ⟨running, sound', ?_, fun member => absurd member starts, by simp [inactive],
        by simp [absent], by simp [absent]⟩
      simp [timers, none_, busy]
    | refused =>
      refine ⟨running, sound', ?_, fun _ => free, by simp [inactive], by simp [absent],
        fun _ => free⟩
      simp [timers, none_, busy]
    | failed =>
      refine ⟨running, sound', ?_, fun _ => free, by simp [inactive], by simp [absent],
        fun _ => free⟩
      simp [timers, none_, busy, state]

theorem connecting_alone (calm : Calm s) (connecting : s.state_ = .kConnecting) :
    s.timers = [] ∧ .startInLoop ∉ s.queue.waiting ∧ s.connection = .absent := by
  have one := calm.one
  have working : busy s = 1 := by simp [busy, connecting]
  refine ⟨List.eq_nil_of_length_eq_zero (by omega), ?_, ?_⟩
  · exact List.count_eq_zero.mp (by omega)
  · by_contra present
    simp [calm.handed present] at connecting

theorem left_calm (calm : Calm s) (inactive : s.active = false)
    (connecting : s.state_ = .kConnecting) (held : s.channel_ = some channel)
    (left : Left s channel t) : Calm t := by
  obtain ⟨timers, starts, absent⟩ := connecting_alone calm connecting
  have sound' := left_sound calm.sound connecting held left
  have starts' : .startInLoop ∉ (removed s channel).queue.waiting := by
    simp [removed, queueInLoop, starts]
  have none_ := List.count_eq_zero_of_not_mem starts'
  cases left with
  | retried count =>
    refine ⟨calm.running, sound', ?_, fun member => absurd member starts', ?_, ?_, ?_⟩
    · have atMost := Bool.toNat_le s.connect_
      simp only [busy, if_true, none_, count, timers, List.length_nil]
      omega
    · simp [removed, queueInLoop, inactive]
    · simp [removed, queueInLoop, absent]
    · simp [removed, queueInLoop, absent]
  | handed =>
    refine ⟨calm.running, sound', ?_, fun member => absurd member starts', ?_, fun _ => rfl, by simp⟩
    · simp only [busy, none_]
      simp [removed, queueInLoop, timers]
    · simp [removed, queueInLoop, inactive]
  | dropped =>
    refine ⟨calm.running, sound', ?_, fun member => absurd member starts', ?_, fun _ => rfl, ?_⟩
    · simp only [busy, none_]
      simp [removed, queueInLoop, timers]
    · simp [removed, queueInLoop, inactive]
    · simp [removed, queueInLoop, absent]

theorem idle_of_disconnected (calm : Calm s) (rest : s.state_ = .kDisconnected) :
    s.connection = .absent ∧ s.active = false := by
  refine ⟨?_, ?_⟩
  · by_contra present
    have connected := calm.handed present
    simp [rest] at connected
  · by_contra active
    have connecting := (calm.dispatched (by simpa using active)).2
    simp [rest] at connecting

theorem start_calm (calm : Calm s) (rest : AtRest s) (inLoopThread : Bool) (savedErrno : Errno) :
    ∃ t, s.start inLoopThread savedErrno = .ok t ∧ Calm t := by
  obtain ⟨absent, inactive⟩ := idle_of_disconnected calm rest.state
  have ⟨⟨connecting, resets, idle⟩, balanced⟩ := calm.sound
  have sound' : Sound { s with connect_ := true } := ⟨⟨connecting, resets, idle⟩, balanced⟩
  cases inLoopThread with
  | true =>
    refine vacant_start (s := { s with connect_ := true }) ?_ savedErrno
    exact ⟨calm.running, sound', ⟨rest.state, rest.channel, rest.timers, rest.starts⟩, inactive,
      absent⟩
  | false =>
    refine ⟨_, rfl, calm.running, queueInLoop_sound sound' (by decide), ?_, fun _ => rest.channel,
      calm.dispatched, calm.handed, calm.past⟩
    have none_ := List.count_eq_zero_of_not_mem rest.starts
    simp [queueInLoop, rest.timers, none_, busy, rest.state]

theorem restart_calm (calm : Calm s) (closed : s.connection = .closed) (savedErrno : Errno) :
    ∃ t, s.restart savedErrno = .ok t ∧ Calm t := by
  have connected : s.state_ = .kConnected := calm.handed (by simp [closed])
  have free : s.channel_ = none := calm.past (Or.inr closed)
  have one := calm.one
  have working : busy s = 1 := by simp [busy, connected]
  have inactive : s.active = false := by
    by_contra active
    have connecting := (calm.dispatched (by simpa using active)).2
    simp [connected] at connecting
  have settled := settled_of_balanced calm.sound.balanced (by simp [connected])
  have timers : s.timers = [] := List.eq_nil_of_length_eq_zero (by omega)
  have starts : .startInLoop ∉ s.queue.waiting := List.count_eq_zero.mp (by omega)
  refine vacant_start ?_ savedErrno
  refine ⟨calm.running, ⟨⟨?_, calm.sound.tidy.resets, calm.sound.tidy.idle⟩, ?_⟩,
    ⟨rfl, free, timers, starts⟩, inactive, rfl⟩
  · simp [free]
  · simpa [Balanced, live] using settled

theorem timer_calm {i : Nat} (calm : Calm s) (done : .resetChannel ∉ s.queue.waiting)
    (pending : i < s.timers.length) (savedErrno : Errno) :
    ∃ t, { s with timers := s.timers.eraseIdx i }.startInLoop savedErrno = .ok t ∧ Calm t := by
  have one := calm.one
  have resting : busy s = 0 := by omega
  have rest : s.state_ = .kDisconnected := by
    by_contra working
    simp [busy, working] at resting
  have free : s.channel_ = none := by
    have resets := calm.sound.tidy.resets
    rw [List.count_eq_zero_of_not_mem done] at resets
    have out := mt calm.sound.tidy.connecting.mpr (by simp [rest])
    cases held : s.channel_ with
    | none => rfl
    | some channel => cases added : channel.addedToLoop_ <;> simp [held, added] at resets out
  obtain ⟨absent, inactive⟩ := idle_of_disconnected calm rest
  obtain ⟨⟨connecting, resets, idle⟩, balanced⟩ := calm.sound
  have timers : s.timers.eraseIdx i = [] := by
    apply List.eq_nil_of_length_eq_zero
    rw [List.length_eraseIdx_of_lt pending]
    omega
  have starts : .startInLoop ∉ s.queue.waiting := List.count_eq_zero.mp (by omega)
  have vacant : Vacant { s with timers := s.timers.eraseIdx i } :=
    ⟨calm.running, ⟨⟨connecting, resets, idle⟩, balanced⟩, ⟨rest, free, timers, starts⟩, inactive,
      absent⟩
  exact vacant_start vacant savedErrno

theorem functor_calm {f : Functor} {queue : Batch Functor} (calm : Calm s)
    (phase : s.phase = .functors) (next : s.queue.next = some (f, queue)) (savedErrno : Errno) :
    ∃ t, { s with queue }.runFunctor savedErrno f = .ok t ∧ Calm t := by
  have sound := calm.sound
  obtain ⟨running, ⟨⟨connecting, resets, -⟩, balanced⟩, one, queued, dispatched, handed, past⟩ := calm
  have idle : s.phase = .events → queue.batch = [] := by simp [phase]
  have inactive : s.active = false := by
    by_contra active
    have events := (dispatched (by simpa using active)).1
    simp [phase] at events
  rw [Batch.waiting_next next] at resets one queued
  cases f with
  | startInLoop =>
    rw [List.count_cons_self] at one
    rw [List.count_cons_of_ne (by decide)] at resets
    have resting : busy s = 0 := by omega
    have rest : s.state_ = .kDisconnected := by
      by_contra working
      simp [busy, working] at resting
    have absent : s.connection = .absent := by
      by_contra present
      simp [handed present] at rest
    have timers : s.timers = [] := List.eq_nil_of_length_eq_zero (by omega)
    have starts : .startInLoop ∉ queue.waiting := List.count_eq_zero.mp (by omega)
    have vacant : Vacant { s with queue } :=
      ⟨running, ⟨⟨connecting, resets, idle⟩, balanced⟩,
        ⟨rest, queued (List.mem_cons_self ..), timers, starts⟩, inactive, absent⟩
    exact vacant_start vacant savedErrno
  | stopInLoop =>
    rw [List.count_cons_of_ne (by decide)] at one resets
    have calm' : Calm { s with queue } :=
      ⟨running, ⟨⟨connecting, resets, idle⟩, balanced⟩, one,
        fun member => queued (List.mem_cons_of_mem _ member), dispatched, handed, past⟩
    by_cases working : s.state_ = .kConnecting
    · obtain ⟨channel, held, -⟩ := channel_of_connecting calm'.sound.tidy working
      obtain ⟨t, ran, left⟩ := stopInLoop_left held working
      exact ⟨t, ran, left_calm calm' inactive working held left⟩
    · exact ⟨_, if_neg working, calm'⟩
  | resetChannel =>
    rw [List.count_cons_of_ne (by decide)] at one
    rw [List.count_cons_self] at resets
    have out : (!s.channel_.any Channel.addedToLoop_) = true := by
      cases held : s.channel_ with
      | none => rfl
      | some channel => cases added : channel.addedToLoop_ <;> simp [held, added] at resets ⊢
    have ran : { s with queue }.runFunctor savedErrno .resetChannel = .ok { s with
        queue, channel_ := none
        connection := if s.connection = .fresh then .established else s.connection } := by
      simp only [runFunctor, resetChannel, assertThat_of_true out, ok_bind, pure_eq_ok]
    refine ⟨_, ran, running, runFunctor_sound sound phase next ran, one, fun _ => rfl, dispatched, ?_,
      fun _ => rfl⟩
    intro present
    apply handed
    intro absent
    simp [absent] at present

theorem event_calm (calm : Calm s) (active : s.active = true) (error write soError selfConnect : Bool) :
    ∃ t, { s with active := false }.handleEvent error write soError selfConnect = .ok t ∧ Calm t := by
  obtain ⟨-, working⟩ := calm.dispatched active
  obtain ⟨channel, held, -⟩ := channel_of_connecting calm.sound.tidy working
  obtain ⟨running, ⟨⟨connecting, resets, idle⟩, balanced⟩, one, queued, -, handed, past⟩ := calm
  have calm' : Calm { s with active := false } :=
    ⟨running, ⟨⟨connecting, resets, idle⟩, balanced⟩, one, queued, by simp, handed, past⟩
  cases error with
  | true =>
    -- The error callback leaves kDisconnected, with which the write callback does nothing.
    obtain ⟨t, ran, left, rest⟩ := handleError_left (s := { s with active := false }) held working
    have calm'' := left_calm calm' rfl working held left
    refine ⟨t, ?_, calm''⟩
    simp only [handleEvent, if_true, ran, ok_bind]
    cases write with
    | false => rfl
    | true => simp [handleWrite, rest]
  | false =>
    cases write with
    | false => exact ⟨_, rfl, calm'⟩
    | true =>
      obtain ⟨t, ran, left⟩ := handleWrite_left (s := { s with active := false }) held working soError
        selfConnect
      exact ⟨t, ran, left_calm calm' rfl working held left⟩

theorem perform_calm {r : Checked Connector} (calm : Calm s) (orderly : Orderly s l)
    (performed : s.perform l = some r) : ∃ t, r = .ok t ∧ Calm t := by
  have ⟨running, ⟨⟨connecting, resets, idle⟩, balanced⟩, one, queued, dispatched, handed, past⟩ := calm
  cases l with
  | start inLoopThread savedErrno =>
    obtain rfl := Option.some.inj performed
    exact start_calm calm orderly inLoopThread savedErrno
  | stop =>
    obtain rfl := Option.some.inj performed
    have sound' : Sound { s with connect_ := false } := ⟨⟨connecting, resets, idle⟩, balanced⟩
    refine ⟨_, rfl, running, queueInLoop_sound sound' (by decide), ?_, ?_, dispatched, handed, past⟩
    · have same : (s.queue.push .stopInLoop).waiting.count .startInLoop =
          s.queue.waiting.count .startInLoop := by
        simp [List.count_append]
      rw [← same] at one
      exact one
    · simpa [stop, queueInLoop] using queued
  | restart savedErrno =>
    obtain rfl := Option.some.inj performed
    exact restart_calm calm orderly savedErrno
  | poll ready =>
    simp only [perform] at performed
    split at performed
    · rename_i ended
      cases performed
      refine ⟨_, rfl, running, ⟨⟨connecting, resets, fun _ => ended.2⟩, balanced⟩, one, queued, ?_,
        handed, past⟩
      intro active
      exact ⟨rfl, connecting.mpr (Bool.and_eq_true _ _ ▸ active).2⟩
    · cases performed
  | event error write soError selfConnect =>
    simp only [perform] at performed
    split at performed
    · rename_i active
      obtain rfl := Option.some.inj performed
      exact event_calm calm active.2 error write soError selfConnect
    · cases performed
  | timer i savedErrno =>
    simp only [perform] at performed
    split at performed
    · rename_i pending
      obtain rfl := Option.some.inj performed
      exact timer_calm calm orderly pending.2 savedErrno
    · cases performed
  | swap =>
    simp only [perform] at performed
    split at performed
    · rename_i handled
      cases performed
      have same := Batch.waiting_swap (idle handled.1)
      refine ⟨_, rfl, running, ⟨⟨connecting, ?_, by simp⟩, balanced⟩, ?_, ?_, ?_, handed, past⟩
      · rw [← resets, same]
      · rw [same]
        exact one
      · rw [same]
        exact queued
      · simp [handled.2]
    · cases performed
  | functor savedErrno =>
    simp only [perform] at performed
    split at performed
    · rename_i phase
      obtain ⟨⟨f, queue⟩, next, rfl⟩ := Option.map_eq_some_iff.mp performed
      exact functor_calm calm phase next savedErrno
    · cases performed
  | connectionClosed =>
    simp only [perform] at performed
    split at performed
    · rename_i established
      cases performed
      refine ⟨_, rfl, running, ⟨⟨connecting, resets, idle⟩, balanced⟩, one, queued, dispatched, ?_, ?_⟩
      · exact fun _ => handed (by simp [established])
      · exact fun _ => past (Or.inl established)
    · cases performed

end Connector
end Muduo
