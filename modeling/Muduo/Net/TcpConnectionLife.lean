import Muduo.Net.TcpConnectionFlow
import Muduo.Net.TcpConnectionOutput

/-!
The life of a connection whose reading is never switched by hand (no startRead
or stopRead). As long as connectDestroyed starts only when it can finish, no
assertion fails: the interest follows state_, and a dispatch finds the
connection open whenever it can reach handleClose.
-/
namespace Muduo
open Lib
namespace TcpConnection
variable {s t : State} {c : Conn} {frame : Frame} {f : Functor} {rest : List Frame} {removals : Nat}
  {r : Option Request}

def Functor.switchesRead (f : Functor) : Bool := f = .startReadInLoop || f = .stopReadInLoop

/-- Steps that do not call startRead or stopRead. -/
def Label.calm : Label → Bool
  | .threadCall _ .startRead | .threadCall _ .stopRead => false
  | .call .startRead | .call .stopRead => false
  | _ => true

structure Unswitched (s : State) : Prop where
  stack : ∀ f, .run f ∈ s.stack → f.switchesRead = false
  queue : ∀ f ∈ s.queue.waiting, f.switchesRead = false
  threads : ∀ n f, s.threads n = some f → f.switchesRead = false

theorem callsBack_switches (calls : f.callsBack) : f.switchesRead = false := by
  rcases calls with rfl | ⟨n, rfl⟩ <;> rfl

theorem did_unswitched (inv : Unswitched s) (top : s.stack = frame :: rest)
    (did : Did { s with stack := rest } frame t) :
    Unswitched t := by
  obtain ⟨pushed, executed, leaves⟩ := did_executed did
  have below : ∀ f, .run f ∈ rest → f.switchesRead = false := by
    intro f member
    exact inv.stack f (by rw [top]; exact List.mem_cons_of_mem _ member)
  constructor
  · intro f member
    rw [executed.stack, List.mem_append] at member
    rcases member with new | old
    · exact absurd new ((leaves_tame leaves).runs f)
    · exact below f old
  · cases did with
    | send spec =>
      intro f member
      simp only [deliver, Batch.waiting_foldl_push, List.mem_append] at member
      exact member.elim (inv.queue f) fun new => callsBack_switches (spec.queued f new)
    | write spec =>
      intro f member
      simp only [enter, deliver, Batch.waiting_foldl_push, List.mem_append] at member
      exact member.elim (inv.queue f) fun new => callsBack_switches (spec.queued f new)
    | halfClose =>
      unfold shutdownInLoop
      split <;> exact inv.queue
    | queueForceClose =>
      intro f member
      simp only [pushFunctor, Batch.waiting_push, List.mem_append, List.mem_singleton] at member
      rcases member with old | rfl
      · exact inv.queue f old
      · rfl
    | nothing | user | close | startRead | stopRead | addTimer | establish | destroy | destroyRest
    | eventDone | callback | closeCallback | remove => exact inv.queue
  · rw [executed.threads]
    exact inv.threads

theorem asked_unswitched {caller : Caller} {c : Call} (asked : Asked s caller c t r)
    (calm : c ≠ .startRead ∧ c ≠ .stopRead) (inv : Unswitched s) :
    Unswitched t ∧ t.threads = s.threads ∧
      ∀ q, r = some q → q.functor.switchesRead = false ∧ ∀ f, q.frame = .run f → f.switchesRead = false := by
  cases asked with
  | startRead => exact absurd rfl calm.1
  | stopRead => exact absurd rfl calm.2
  | _ =>
    refine ⟨⟨inv.stack, inv.queue, inv.threads⟩, rfl, ?_⟩
    simp [Request.functor, Request.frame, Functor.switchesRead]

theorem unswitched_loopCall {c : Call} (inv : Unswitched s) (asked : Asked s .loop c t r)
    (calm : c ≠ .startRead ∧ c ≠ .stopRead) :
    Unswitched { t with stack := (r.map Request.frame).toList ++ t.stack } := by
  obtain ⟨kept, -, request⟩ := asked_unswitched asked calm inv
  refine ⟨?_, kept.queue, kept.threads⟩
  intro f member
  rcases List.mem_append.mp member with new | old
  · obtain ⟨q, made, same⟩ : ∃ q, r = some q ∧ q.frame = .run f := by
      cases r with
      | none => cases new
      | some q => exact ⟨q, rfl, (List.mem_singleton.mp new).symm⟩
    exact (request q made).2 f same
  · exact kept.stack f old

theorem unswitched_pushFunctor (inv : Unswitched s) (calm : f.switchesRead = false) :
    Unswitched (pushFunctor s f) := by
  refine ⟨inv.stack, ?_, inv.threads⟩
  intro g member
  simp only [pushFunctor, Batch.waiting_push, List.mem_append, List.mem_singleton] at member
  rcases member with old | rfl
  · exact inv.queue g old
  · exact calm

theorem unswitched_enter {frames : List Frame} (inv : Unswitched s)
    (calm : ∀ f, .run f ∈ frames → f.switchesRead = false) : Unswitched (enter s frames) := by
  refine ⟨?_, inv.queue, inv.threads⟩
  intro f member
  exact (List.mem_append.mp member).elim (calm f) (inv.stack f)

theorem unswitched_ownerRan (ran : OwnerRan s f t) (inv : Unswitched s)
    (calm : f.switchesRead = false) : Unswitched t := by
  cases ran with
  | here => exact unswitched_enter inv (by simp [calm])
  | away => exact unswitched_pushFunctor inv calm

theorem unswitched_step {l : Label} (lawful : Lawful s) (inv : Unswitched s) (calm : l.calm = true)
    (taken : step s l = some t) : Unswitched t := by
  obtain ⟨-, stepped⟩ := stepped lawful.sound taken
  cases stepped with
  | @threadCall n c t r _ asked =>
    have quiet : c ≠ .startRead ∧ c ≠ .stopRead := by cases c <;> simp_all [Label.calm]
    obtain ⟨kept, -, request⟩ := asked_unswitched asked quiet inv
    refine ⟨kept.stack, kept.queue, ?_⟩
    intro k f held
    by_cases same : k = n
    · subst same
      simp only [Function.update_self] at held
      obtain ⟨q, made, rfl⟩ := Option.map_eq_some_iff.mp held
      exact (request q made).1
    · exact inv.threads k f (by simpa [Function.update_of_ne same] using held)
  | @threadPush n f busy =>
    obtain ⟨returned, pushed⟩ := threadPush_eq s n f
    rw [pushed]
    have kept := unswitched_pushFunctor inv (inv.threads n f busy)
    refine ⟨kept.stack, kept.queue, ?_⟩
    intro k g held
    by_cases same : k = n
    · subst same
      simp at held
    · exact inv.threads k g (by simpa [Function.update_of_ne same] using held)
  | queueTask => exact unswitched_pushFunctor inv rfl
  | introduce _ ran => exact unswitched_ownerRan ran ⟨inv.stack, inv.queue, inv.threads⟩ rfl
  | ownerRemoves =>
    have kept : Unswitched { s with owned := false } := ⟨inv.stack, inv.queue, inv.threads⟩
    exact unswitched_pushFunctor kept rfl
  | ownerTearsDown _ _ ran => exact unswitched_ownerRan ran ⟨inv.stack, inv.queue, inv.threads⟩ rfl
  | otherCode | dispatch =>
    exact unswitched_enter ⟨inv.stack, inv.queue, inv.threads⟩ (by simp)
  | fireTimer _ _ _ asked =>
    have kept : Unswitched { s with timers := s.timers - 1, current := false } :=
      ⟨inv.stack, inv.queue, inv.threads⟩
    exact unswitched_loopCall kept asked ⟨nofun, nofun⟩
  | endHandling handling =>
    have idle := lawful.flow.batch (by rw [handling]; decide)
    refine ⟨inv.stack, ?_, inv.threads⟩
    rw [show s.queue.swap.waiting = s.queue.waiting from Batch.waiting_swap idle]
    exact inv.queue
  | @nextFunctor f q _ empty next =>
    have waiting := Batch.waiting_next next
    refine ⟨?_, ?_, inv.threads⟩
    · intro g member
      have same : g = f := by simpa [enter, empty] using member
      exact inv.queue g (by rw [waiting, same]; exact List.mem_cons_self)
    · intro g member
      exact inv.queue g (by rw [waiting]; exact List.mem_cons_of_mem _ member)
  | @call c t r rest _ asked =>
    have quiet : c ≠ .startRead ∧ c ≠ .stopRead := by cases c <;> simp_all [Label.calm]
    exact unswitched_loopCall inv asked quiet
  | ret top =>
    refine ⟨?_, inv.queue, inv.threads⟩
    intro f member
    exact inv.stack f (by rw [top]; exact List.mem_cons_of_mem _ member)
  | exec top did => exact did_unswitched inv top did
  | pollNone | pollSome | endFunctors | failed => exact ⟨inv.stack, inv.queue, inv.threads⟩

theorem did_state (did : Did s frame t) :
    t.conn.state_ = s.conn.state_ ∨
      (t.conn.state_ = .kDisconnected ∧ s.conn.alive ∧
        (ClosesFrom s.conn.channel_.revents_ frame ∨ frame = .run .forceCloseInLoop ∨
          frame = .run .connectDestroyed)) ∨
      (t.conn.state_ = .kConnected ∧ s.conn.state_ = .kConnecting) := by
  cases did with
  | send spec => exact Or.inl spec.state
  | write spec => exact Or.inl spec.state
  | halfClose =>
    unfold shutdownInLoop
    split <;> exact Or.inl rfl
  | close origin alive =>
    rcases origin with test | force
    · exact Or.inr (Or.inl ⟨rfl, alive, Or.inl test⟩)
    · exact Or.inr (Or.inl ⟨rfl, alive, Or.inr (Or.inl force)⟩)
  | destroy up => exact Or.inr (Or.inl ⟨rfl, Or.inl up, Or.inr (Or.inr rfl)⟩)
  | establish connecting => exact Or.inr (Or.inr ⟨rfl, connecting⟩)
  | nothing | user | startRead | stopRead | addTimer | destroyRest | queueForceClose | eventDone
  | callback | closeCallback | remove => exact Or.inl rfl

theorem did_revents (did : Did s frame t) :
    t.conn.channel_.revents_ = s.conn.channel_.revents_ := by
  cases did with
  | send spec | write spec =>
    rcases spec.channel with ⟨same, -⟩ | ⟨-, updated⟩
    · exact congrArg Channel.revents_ same
    · have kept := congrArg Channel.revents_ updated
      exact kept
  | halfClose =>
    unfold shutdownInLoop
    split <;> rfl
  | _ => rfl

theorem leaves_removes {pushed : List Frame} (leaves : Leaves s frame pushed)
    (removes : .removeChannel ∈ pushed) : frame = .run .connectDestroyed := by
  unfold Leaves at leaves
  split at leaves
  · simp [leaves] at removes
  · rfl
  all_goals rcases leaves with rfl | rfl | rfl <;> simp at removes

theorem did_destroyed (top : s.stack = frame :: rest) (did : Did { s with stack := rest } frame t) :
    destroyed t = destroyed s ∨ frame = .run .connectDestroyed := by
  cases did with
  | destroy => exact Or.inr rfl
  | destroyRest => exact Or.inr rfl
  | remove =>
    left
    simp only [destroyed, top, List.count_cons_self]
    omega
  | halfClose tested =>
    left
    have other : frame ≠ .removeChannel := by
      rcases tested with rfl | ⟨rfl, -⟩ <;> simp
    unfold shutdownInLoop
    split <;> simp [destroyed, top, List.count_cons_of_ne other]
  | nothing idle =>
    left
    have other : frame ≠ .removeChannel := by
      rintro rfl
      cases idle
    simp [destroyed, top, List.count_cons_of_ne other]
  | user calls =>
    left
    have other : frame ≠ .removeChannel := by
      rintro rfl
      cases calls
    simp [destroyed, enter, top, List.count_cons_of_ne other]
  | close origin =>
    left
    have other : frame ≠ .removeChannel := by
      rcases origin with (⟨rfl, -⟩ | ⟨rfl, -⟩) | rfl <;> simp
    simp [destroyed, closedBy, enter, deliver, top, List.count_cons_of_ne other]
  | @write c out drained _ =>
    left
    cases drained <;> simp [destroyed, enter, deliver, top]
  | send | startRead | stopRead | addTimer | establish | queueForceClose | eventDone | callback
  | closeCallback =>
    left
    simp [destroyed, enter, deliver, pushFunctor, noteRan, top]

theorem did_tells (quiet : s.stack.flatMap Frame.tells = []) (did : Did s frame t) :
    t.stack.flatMap Frame.tells = [] ∨
      (s.conn.state_ ≠ .kDisconnected ∧ t.hist.removals = s.hist.removals) := by
  cases did with
  | close _ alive => exact Or.inr ⟨(alive_expected alive).2.2, rfl⟩
  | establish connecting => exact Or.inr ⟨by rw [connecting]; nofun, rfl⟩
  | destroy up => exact Or.inr ⟨by rw [up]; nofun, rfl⟩
  | halfClose =>
    left
    unfold shutdownInLoop
    split <;> exact quiet
  | @write c out drained _ =>
    left
    cases drained <;> exact quiet
  | nothing | user | send | startRead | stopRead | addTimer | destroyRest | queueForceClose
  | eventDone | callback | closeCallback | remove => exact Or.inl quiet

def Interest (state : StateE) (ch : Channel) (removals : Nat) : Prop :=
  match state with
  | .kConnecting => ch.isNoneEvent ∧ ch.index_ = EPollPoller.kNew
  | .kConnected | .kDisconnecting =>
    ch.events_.pollin = true ∧ ch.events_.pollpri = true ∧ ch.index_ = EPollPoller.kAdded
  | .kDisconnected =>
    ch.isNoneEvent ∧
      (ch.index_ = if removals = 0 then EPollPoller.kDeleted else EPollPoller.kNew) ∧
      (0 < removals → ch.addedToLoop_ = false)

theorem interest_alive (alive : c.alive) :
    Interest c.state_ c.channel_ removals ↔ c.channel_.events_.pollin = true ∧
      c.channel_.events_.pollpri = true ∧ c.channel_.index_ = EPollPoller.kAdded := by
  rcases alive with up | closing
  · rw [up]
    exact Iff.rfl
  · rw [closing]
    exact Iff.rfl

theorem interest_updated {ch : Channel} {events : Events} (alive : c.alive)
    (interest : Interest c.state_ c.channel_ removals) (updated : ch = c.channel_.updated events)
    (pollin : events.pollin = c.channel_.events_.pollin)
    (pollpri : events.pollpri = c.channel_.events_.pollpri) : Interest c.state_ ch removals := by
  obtain ⟨reads, urgent, -⟩ := (interest_alive alive).mp interest
  have kept : Interest c.state_ (c.channel_.updated events) removals ↔ _ :=
    interest_alive (c := { c with channel_ := c.channel_.updated events }) alive
  rw [updated, kept]
  have some_event : events ≠ .kNoneEvent := by
    rintro rfl
    rw [reads] at pollin
    cases pollin
  exact ⟨pollin.trans reads, pollpri.trans urgent, by simp [Channel.updated, some_event]⟩

theorem writing_alive (interest : Interest c.state_ c.channel_ removals)
    (writing : c.channel_.isWriting = true) : c.alive := by
  rw [Conn.isWriting_eq] at writing
  cases state : c.state_ with
  | kConnecting | kDisconnected =>
    rw [state] at interest
    rw [interest.1] at writing
    cases writing
  | kConnected => exact Or.inl state
  | kDisconnecting => exact Or.inr state

theorem interest_disconnected (alive : c.alive) (interest : Interest c.state_ c.channel_ 0) :
    Interest .kDisconnected c.disconnected.channel_ 0 := by
  obtain ⟨-, -, added⟩ := (interest_alive alive).mp interest
  refine ⟨rfl, ?_, nofun⟩
  simp [Conn.disconnected, Conn.reinterest, Channel.updated, added]

theorem interest_established (connecting : c.state_ = .kConnecting)
    (interest : Interest c.state_ c.channel_ removals) :
    Interest .kConnected c.established.channel_ removals := by
  rw [connecting] at interest
  obtain ⟨none, new⟩ := interest
  simp [Interest, Conn.established, Conn.reinterest, Channel.updated, Channel.tie, Events.union,
    Events.kReadEvent, new, Channel.kNew_ne_kAdded]

theorem slotOf_interest {ch : Channel} {slot : Slot} {events : Events} (synced : ch.Synced slot)
    (registered : slot.interest = some events) :
    ch.index_ = EPollPoller.kAdded ∧ events = ch.events_ := by
  rw [synced.slot] at registered
  rcases synced.index with new | added | deleted
  · simp [Channel.slotOf, new, Channel.kNew_ne_kAdded, Channel.kNew_ne_kDeleted] at registered
  · simp [Channel.slotOf, added] at registered
    exact ⟨added, registered.symm⟩
  · simp [Channel.slotOf, deleted, Channel.kDeleted_ne_kAdded] at registered

theorem interest_polled {interest ev : Events} (sound : c.Sound)
    (known : Interest c.state_ c.channel_ removals) (registered : c.slot.interest = some interest)
    (legal : interest.Returnable ev) : c.alive ∧ ¬ev.hangsUp := by
  obtain ⟨added, rfl⟩ := slotOf_interest sound.synced registered
  have alive : c.alive := by
    cases state : c.state_ with
    | kConnected => exact Or.inl state
    | kDisconnecting => exact Or.inr state
    | kConnecting =>
      rw [state] at known
      rw [known.2] at added
      exact absurd added Channel.kNew_ne_kAdded
    | kDisconnected =>
      rw [state] at known
      rw [known.2.1] at added
      split at added
      · exact absurd added Channel.kDeleted_ne_kAdded
      · exact absurd added Channel.kNew_ne_kAdded
  refine ⟨alive, ?_⟩
  rintro ⟨hup, no_in⟩
  have reads := ((interest_alive alive).mp known).1
  have := legal.2.2.2.2 hup reads
  rw [no_in] at this
  cases this

/-- Channel::handleEventWithGuard as frames, and what is left of it after the hang-up
    test and after the error test. -/
def handleEvent : List Frame := [.hangUpTest, .errorTest, .readTest, .writeTest, .eventDone]
def afterHangUp : List Frame := [.errorTest, .readTest, .writeTest, .eventDone]
def afterError : List Frame := [.readTest, .writeTest, .eventDone]

/-- When a dispatch is ahead or under way, what can still call handleClose finds the
    connection open, and does so only once. -/
structure Dispatch (s : State) : Prop where
  todo : s.todo = true → s.conn.alive ∧ ¬s.conn.channel_.revents_.hangsUp
  hang : .hangUpTest ∈ s.stack →
    s.stack = handleEvent ∧ s.conn.alive ∧ ¬s.conn.channel_.revents_.hangsUp
  read : .readTest ∈ s.stack → s.conn.channel_.revents_.reads →
    s.conn.alive ∧ (s.stack = handleEvent ∨ s.stack = afterHangUp ∨ s.stack = afterError)

structure Life (s : State) : Prop where
  unswitched : Unswitched s
  unsent : s.conn.state_ = .kConnecting → s.hist.called = []
  interest : Interest s.conn.state_ s.conn.channel_ s.hist.removals
  dispatch : Dispatch s
  removal : .removeChannel ∈ s.stack → (loopView s).MayRemove
  gone : 0 < destroyed s → s.conn.state_ = .kDisconnected
  silenced : 0 < s.hist.removals → s.stack.flatMap Frame.tells = []
  running : s.fault = none

/-- What connectDestroyed needs in order to get through. -/
def Destroyable (s : State) : Prop :=
  s.conn.state_ ≠ .kDisconnecting ∧ (loopView s).MayRemove

instance (s : State) : Decidable (Destroyable s) := inferInstanceAs (Decidable (_ ∧ _))

def Gate (s : State) (l : Label) : Prop :=
  ∀ w r, l = .exec w r → s.stack.head? = some (.run .connectDestroyed) → Destroyable s

theorem life_init (setup : Setup) : Life (init setup) := by
  refine ⟨⟨by simp [init], by simp [init], by simp [init]⟩, ?_, ⟨rfl, rfl⟩,
    ⟨by simp [init], by simp [init], by simp [init]⟩, by simp [init], ?_, ?_, rfl⟩
  · intro _
    rfl
  · simp [init, destroyed, History.empty]
  · intro _
    rfl

theorem Life.not_connecting {m : Message} (inv : Life s) (order : InOrder s)
    (top : s.stack = .run (.sendInLoop m) :: rest) : s.conn.state_ ≠ .kConnecting := by
  intro connecting
  have nothing := order.order m.caller
  rw [inv.unsent connecting] at nothing
  have member : m ∈ ofCaller m.caller
      (s.hist.ran ++ onStack s ++ inQueue s ++ atEntry s m.caller) := by
    simp [ofCaller, onStack, top, Frame.messages, Functor.messages]
  rw [← nothing] at member
  cases member

theorem alive_of_open (born : c.state_ ≠ .kConnecting) (up : c.state_ ≠ .kDisconnected) :
    c.alive := by
  cases state : c.state_ with
  | kConnecting => exact absurd state born
  | kDisconnected => exact absurd state up
  | kConnected => exact Or.inl state
  | kDisconnecting => exact Or.inr state

theorem Life.removals_zero (inv : Life s) (alive : s.conn.alive) : s.hist.removals = 0 := by
  by_contra some
  have down := inv.gone (by unfold destroyed; omega)
  exact (alive_expected alive).2.2 down

theorem destroyed_pos (removing : .removeChannel ∈ s.stack) : 0 < destroyed s := by
  have := List.count_pos_iff.mpr removing
  unfold destroyed
  omega

theorem did_interest (inv : Life s) (order : InOrder s) (top : s.stack = frame :: rest)
    (did : Did { s with stack := rest } frame t) :
    Interest t.conn.state_ t.conn.channel_ t.hist.removals := by
  have interest := inv.interest
  cases did with
  | send spec =>
    have state := spec.state
    rcases spec.channel with ⟨same, -⟩ | ⟨up, updated⟩
    · simp only [deliver, noteRan, state, same]
      exact interest
    · have alive := alive_of_open (inv.not_connecting order top) up
      simp only [deliver, noteRan, state]
      exact interest_updated alive interest updated
        (by simp [Events.union, Events.kWriteEvent]) (by simp [Events.union, Events.kWriteEvent])
  | write spec =>
    have state := spec.state
    rcases spec.channel with ⟨same, -⟩ | ⟨writing, updated⟩
    · simp only [enter, deliver, state, same]
      exact interest
    · have alive : s.conn.alive := writing_alive interest writing
      simp only [enter, deliver, state]
      exact interest_updated alive interest updated
        (by simp [Events.without, Events.kWriteEvent]) (by simp [Events.without, Events.kWriteEvent])
  | close origin alive =>
    have none_yet := inv.removals_zero alive
    rw [none_yet] at interest
    simp only [closedBy, enter, deliver, none_yet]
    exact interest_disconnected alive interest
  | destroy up =>
    have alive : s.conn.alive := Or.inl up
    have none_yet := inv.removals_zero alive
    rw [none_yet] at interest
    simp only [enter, deliver, none_yet]
    exact interest_disconnected alive interest
  | establish connecting => exact interest_established connecting interest
  | startRead | stopRead =>
    have := inv.unswitched.stack _ (by rw [top]; exact List.mem_cons_self)
    cases this
  | halfClose =>
    unfold shutdownInLoop
    split <;> exact interest
  | remove none =>
    have down := inv.gone (destroyed_pos (by rw [top]; exact List.mem_cons_self))
    simp only [Conn.setChannel, down]
    exact ⟨none, by simp, fun _ => rfl⟩
  | nothing | user | addTimer | destroyRest | queueForceClose | eventDone | callback
  | closeCallback => exact interest

theorem did_dispatch (lawful : Lawful s) (inv : Life s) (top : s.stack = frame :: rest)
    (did : Did { s with stack := rest } frame t)
    (gate : frame = .run .connectDestroyed → Destroyable s) : Dispatch t := by
  obtain ⟨pushed, executed, leaves⟩ := did_executed did
  have tame := leaves_tame leaves
  have below := lawful.flow.below top
  have stack : t.stack = pushed ++ rest := executed.stack
  have revents := did_revents did
  have in_rest : .readTest ∈ t.stack → .readTest ∈ rest := by
    intro member
    rw [stack] at member
    exact (List.mem_append.mp member).resolve_left tame.reads
  constructor
  · intro todo
    rw [executed.todo] at todo
    obtain ⟨alive, quiet⟩ := inv.dispatch.todo todo
    obtain ⟨handling, active, not_current⟩ := lawful.flow.todo todo
    rw [revents]
    refine ⟨?_, quiet⟩
    rcases did_state did with same | ⟨-, -, origin⟩ | ⟨-, connecting⟩
    · unfold Conn.alive
      rw [same]
      exact alive
    · exfalso
      rcases origin with (⟨rfl, -⟩ | ⟨rfl, -⟩) | rfl | rfl
      · have := lawful.flow.dispatched (Or.inr (by rw [top]; exact List.mem_cons_self))
        rw [not_current] at this
        cases this
      · have := lawful.flow.dispatched (Or.inl (by rw [top]; exact List.mem_cons_self))
        rw [not_current] at this
        cases this
      · have := lawful.flow.forced (by rw [top]; exact List.mem_cons_self)
        rw [handling] at this
        cases this
      · have may := (gate rfl).2
        simp [Channel.LoopView.MayRemove, loopView, handling, active, not_current] at may
    · exact absurd connecting (alive_expected alive).2.1
  · intro member
    rw [stack] at member
    have := below _ ((List.mem_append.mp member).resolve_left tame.hangs)
    cases this
  · intro member reads
    rw [revents] at reads
    have old := in_rest member
    obtain ⟨alive, shape⟩ := inv.dispatch.read (by rw [top]; exact List.mem_cons_of_mem _ old) reads
    rw [top] at shape
    rcases shape with shape | shape | shape
    · obtain ⟨rfl, rfl⟩ := List.cons.inj shape
      obtain ⟨-, -, quiet⟩ := inv.dispatch.hang (by rw [top]; exact List.mem_cons_self)
      cases did with
      | nothing => exact ⟨alive, Or.inr (Or.inl rfl)⟩
      | user other => cases other
      | halfClose other => simp at other
      | close origin =>
        rcases origin with (⟨-, hangs⟩ | ⟨impossible, -⟩) | impossible
        · exact absurd hangs quiet
        · cases impossible
        · cases impossible
    · obtain ⟨rfl, rfl⟩ := List.cons.inj shape
      cases did with
      | nothing => exact ⟨alive, Or.inr (Or.inr rfl)⟩
      | user other => cases other
      | halfClose other | close other => simp [ClosesFrom] at other
    · obtain ⟨rfl, rfl⟩ := List.cons.inj shape
      simp at old

theorem life_exec (lawful : Lawful s) (order : InOrder s) (inv : Life s)
    (top : s.stack = frame :: rest) (did : Did { s with stack := rest } frame t)
    (gate : frame = .run .connectDestroyed → Destroyable s) : Life t := by
  obtain ⟨pushed, executed, leaves⟩ := did_executed did
  have stack : t.stack = pushed ++ rest := executed.stack
  have view : loopView t = loopView s := by
    simp only [loopView, executed.phase, executed.current, executed.active]
  constructor
  · exact did_unswitched inv.unswitched top did
  · intro connecting
    have before : s.conn.state_ = .kConnecting := by
      rcases did_state did with same | ⟨down, -⟩ | ⟨up, -⟩
      · exact same ▸ connecting
      · rw [down] at connecting
        cases connecting
      · rw [up] at connecting
        cases connecting
    rw [(did_carried did).called]
    exact inv.unsent before
  · exact did_interest inv order top did
  · exact did_dispatch lawful inv top did gate
  · intro member
    rw [view]
    rw [stack] at member
    rcases List.mem_append.mp member with new | old
    · exact (gate (leaves_removes leaves new)).2
    · exact inv.removal (by rw [top]; exact List.mem_cons_of_mem _ old)
  · intro some
    rcases did_destroyed top did with same | starts
    · have down := inv.gone (same ▸ some)
      rcases did_state did with same_state | ⟨closed, -⟩ | ⟨-, connecting⟩
      · exact same_state.trans down
      · exact closed
      · rw [show s.conn.state_ = .kConnecting from connecting] at down
        cases down
    · subst starts
      obtain ⟨-, -, -, not_connecting, -⟩ := lawful.ledger.destroying_facts lawful.flow top
      rcases did.of_connectDestroyed with ⟨-, rfl⟩ | ⟨not_up, rfl⟩
      · rfl
      · cases state : s.conn.state_ with
        | kConnecting => exact absurd state not_connecting
        | kConnected => exact absurd state not_up
        | kDisconnecting => exact absurd state (gate rfl).1
        | kDisconnected => exact state
  · intro some
    have quiet := (resting_silent (lawful.flow.below top)).2.1
    rcases did_tells quiet did with silent | ⟨not_down, same⟩
    · exact silent
    · refine absurd (inv.gone ?_) not_down
      have before : t.hist.removals = s.hist.removals := same
      unfold destroyed
      omega
  · rw [executed.fault]
    exact inv.running

theorem life_never_fails {e : String} (lawful : Lawful s) (inv : Life s)
    (top : s.stack = frame :: rest) : ¬Failed { s with stack := rest } frame e := by
  intro failed
  have here : frame ∈ s.stack := by rw [top]; exact List.mem_cons_self
  cases failed with
  | close origin dead =>
    rcases origin with ⟨rfl, -⟩ | ⟨rfl, reads⟩
    · exact dead (inv.dispatch.hang here).2.1
    · exact dead (inv.dispatch.read here reads).1
  | establish not_connecting => exact not_connecting (lawful.ledger.establishing top)
  | remove refused =>
    have some := destroyed_pos here
    have down := inv.gone some
    have interest := inv.interest
    rw [down] at interest
    have none_yet : s.hist.removals = 0 := by
      have once := lawful.ledger.once
      have counted := List.count_pos_iff.mpr here
      unfold destroyed at once
      omega
    have known : s.conn.channel_.index_ ≠ EPollPoller.kNew := by
      rw [interest.2.1, if_pos none_yet]
      exact Channel.kNew_ne_kDeleted.symm
    have spec := Channel.remove_spec lawful.sound.synced interest.1 known (inv.removal here)
    rw [show s.conn.channel_.remove (loopView s) s.conn.slot = .error e from refused] at spec
    cases spec

/-- No dispatch is at a point where it can still reach handleClose. -/
def Settled (s : State) : Prop :=
  .hangUpTest ∉ s.stack ∧ (.readTest ∈ s.stack → ¬s.conn.channel_.revents_.reads)

theorem Dispatch.settled (inv : Dispatch s) (top : s.stack = .userCode :: rest) : Settled s := by
  constructor
  · intro member
    have := (inv.hang member).1
    rw [top] at this
    cases this
  · intro member reads
    have := (inv.read member reads).2
    rw [top] at this
    rcases this with shape | shape | shape <;> cases shape

theorem settled_of_empty (empty : s.stack = []) : Settled s := by
  simp [Settled, empty]

theorem life_put (inv : Life s) (settled : Settled s) (hang : frame ≠ .hangUpTest)
    (read : frame ≠ .readTest) (remove : frame ≠ .removeChannel) (tells : frame.tells = [])
    (unswitched : Unswitched { s with stack := frame :: s.stack }) :
    Life { s with stack := frame :: s.stack } := by
  refine { inv with unswitched := unswitched, dispatch := ?_, removal := ?_, gone := ?_, silenced := ?_ }
  · refine ⟨inv.dispatch.todo, ?_, ?_⟩
    · intro member
      rcases List.mem_cons.mp member with new | old
      · exact absurd new.symm hang
      · exact absurd old settled.1
    · intro member reads
      rcases List.mem_cons.mp member with new | old
      · exact absurd new.symm read
      · exact absurd reads (settled.2 old)
  · intro member
    rcases List.mem_cons.mp member with new | old
    · exact absurd new.symm remove
    · exact inv.removal old
  · intro some
    refine inv.gone ?_
    simpa [destroyed, List.count_cons_of_ne remove] using some
  · intro some
    simpa [tells] using inv.silenced some

theorem asked_life {caller : Caller} {c : Call} (asked : Asked s caller c t r)
    (calm : c ≠ .startRead ∧ c ≠ .stopRead) (inv : Life s) :
    Life t ∧ (Settled s → Settled t) ∧ ∀ q, r = some q →
      q.frame ≠ .hangUpTest ∧ q.frame ≠ .readTest ∧ q.frame ≠ .removeChannel ∧
        q.frame.tells = [] := by
  obtain ⟨unswitched, -, -⟩ := asked_unswitched asked calm inv.unswitched
  have closing : s.conn.alive → Life { s with conn := { s.conn with state_ := .kDisconnecting } } := by
    intro alive
    have interest := (interest_alive alive).mp inv.interest
    refine { inv with
      unswitched := ⟨inv.unswitched.stack, inv.unswitched.queue, inv.unswitched.threads⟩
      unsent := nofun, interest := interest, dispatch := ⟨?_, ?_, ?_⟩, gone := ?_ }
    · intro todo
      exact ⟨Or.inr rfl, (inv.dispatch.todo todo).2⟩
    · intro member
      obtain ⟨shape, -, quiet⟩ := inv.dispatch.hang member
      exact ⟨shape, Or.inr rfl, quiet⟩
    · intro member reads
      exact ⟨Or.inr rfl, (inv.dispatch.read member reads).2⟩
    · intro some
      exact absurd (inv.gone some) (alive_expected alive).2.2
  cases asked with
  | send up =>
    refine ⟨{ inv with unswitched := unswitched, unsent := ?_, dispatch := ?_ }, id, ?_⟩
    · intro connecting
      rw [show s.conn.state_ = .kConnecting from connecting] at up
      cases up
    · exact ⟨inv.dispatch.todo, inv.dispatch.hang, inv.dispatch.read⟩
    · simp [Request.frame, Frame.tells]
  | shutdown up =>
    have kept := closing (Or.inl up)
    exact ⟨{ kept with unswitched := unswitched
                       dispatch := ⟨kept.dispatch.todo, kept.dispatch.hang, kept.dispatch.read⟩ },
      id, by simp [Request.frame, Frame.tells]⟩
  | forceClose alive => exact ⟨closing alive, id, by simp [Request.frame, Frame.tells]⟩
  | forceCloseWithDelay alive => exact ⟨closing alive, id, by simp [Request.frame, Frame.tells]⟩
  | startRead => exact absurd rfl calm.1
  | stopRead => exact absurd rfl calm.2
  | refused => exact ⟨inv, id, by simp⟩

theorem life_loopCall {c : Call} (inv : Life s) (settled : Settled s) (asked : Asked s .loop c t r)
    (calm : c ≠ .startRead ∧ c ≠ .stopRead)
    (unswitched : Unswitched { t with stack := (r.map Request.frame).toList ++ t.stack }) :
    Life { t with stack := (r.map Request.frame).toList ++ t.stack } := by
  obtain ⟨kept, stays, request⟩ := asked_life asked calm inv
  cases r with
  | none => exact kept
  | some q =>
    obtain ⟨hang, read, remove, tells⟩ := request q rfl
    exact life_put kept (stays settled) hang read remove tells unswitched

theorem life_ownerRan (ran : OwnerRan s f t) (inv : Life s) (unswitched : Unswitched t) :
    Life t := by
  cases ran with
  | here _ top => exact life_put inv (inv.dispatch.settled top) nofun nofun nofun rfl unswitched
  | away =>
    exact { inv with
      unswitched := unswitched
      dispatch := ⟨inv.dispatch.todo, inv.dispatch.hang, inv.dispatch.read⟩ }

theorem life_step {l : Label} (lawful : Lawful s) (order : InOrder s) (inv : Life s)
    (calm : l.calm = true) (gate : Gate s l) (taken : step s l = some t) : Life t := by
  have unswitched := unswitched_step lawful inv.unswitched calm taken
  obtain ⟨-, stepped⟩ := stepped lawful.sound taken
  have same : Dispatch s := inv.dispatch
  cases stepped with
  | @threadCall n c t r _ asked =>
    have quiet : c ≠ .startRead ∧ c ≠ .stopRead := by cases c <;> simp_all [Label.calm]
    obtain ⟨kept, -⟩ := asked_life asked quiet inv
    exact { kept with
      unswitched := unswitched
      dispatch := ⟨kept.dispatch.todo, kept.dispatch.hang, kept.dispatch.read⟩ }
  | @threadPush n f _ =>
    obtain ⟨returned, pushed⟩ := threadPush_eq s n f
    rw [pushed] at unswitched ⊢
    exact { inv with unswitched := unswitched, dispatch := ⟨same.todo, same.hang, same.read⟩ }
  | introduce _ ran | ownerTearsDown _ _ ran =>
    refine life_ownerRan ran ?_ unswitched
    exact { inv with
      unswitched := ⟨inv.unswitched.stack, inv.unswitched.queue, inv.unswitched.threads⟩
      dispatch := ⟨same.todo, same.hang, same.read⟩ }
  | pollNone _ empty =>
    refine { inv with unswitched := unswitched, dispatch := ⟨by simp, ?_, ?_⟩, removal := ?_ }
    · simp [empty]
    · simp [empty]
    · simp [empty]
  | @pollSome ev interest _ empty registered legal =>
    obtain ⟨alive, quiet⟩ := interest_polled lawful.sound inv.interest registered legal
    refine { inv with
      unswitched := unswitched, dispatch := ⟨fun _ => ⟨alive, quiet⟩, ?_, ?_⟩, removal := ?_ }
    · simp [empty]
    · simp [empty]
    · simp [empty]
  | otherCode _ empty =>
    have kept : Life { s with current := false } := by
      refine { inv with
        unswitched := ⟨inv.unswitched.stack, inv.unswitched.queue, inv.unswitched.threads⟩
        dispatch := ⟨same.todo, same.hang, same.read⟩, removal := ?_ }
      simp [empty]
    exact life_put kept (settled_of_empty empty) (by simp) (by simp) (by simp) rfl unswitched
  | dispatch _ empty todo =>
    obtain ⟨alive, quiet⟩ := same.todo todo
    have stack : [.hangUpTest, .errorTest, .readTest, .writeTest, .eventDone] ++ s.stack =
        handleEvent := by rw [empty]; rfl
    refine { inv with
      unswitched := unswitched
      dispatch := ⟨by simp [enter], fun _ => ⟨stack, alive, quiet⟩, fun _ _ => ⟨alive, Or.inl stack⟩⟩
      removal := ?_, gone := ?_, silenced := ?_ }
    · simp [enter, empty]
    · simpa [enter, destroyed, empty] using inv.gone
    · simp [enter, empty, Frame.tells]
  | fireTimer _ empty _ asked =>
    have kept : Life { s with timers := s.timers - 1, current := false } := by
      refine { inv with
        unswitched := ⟨inv.unswitched.stack, inv.unswitched.queue, inv.unswitched.threads⟩
        dispatch := ⟨same.todo, same.hang, same.read⟩, removal := ?_ }
      simp [empty]
    exact life_loopCall kept (settled_of_empty empty) asked ⟨by simp, by simp⟩ unswitched
  | endHandling _ empty | endFunctors _ empty =>
    refine { inv with
      unswitched := unswitched, dispatch := ⟨same.todo, same.hang, same.read⟩, removal := ?_ }
    simp [empty]
  | @nextFunctor f q _ empty _ =>
    refine { inv with
      unswitched := unswitched, dispatch := ⟨same.todo, ?_, ?_⟩, removal := ?_, gone := ?_
      silenced := ?_ }
    · simp [enter, empty]
    · simp [enter, empty]
    · simp [enter, empty]
    · simpa [enter, destroyed, empty] using inv.gone
    · simp [enter, empty, Frame.tells]
  | @call c t r rest top asked =>
    have quiet : c ≠ .startRead ∧ c ≠ .stopRead := by cases c <;> simp_all [Label.calm]
    exact life_loopCall inv (same.settled top) asked quiet unswitched
  | @ret rest top =>
    have settled := same.settled top
    have inside : ∀ {frame}, frame ∈ rest → frame ∈ s.stack := by
      intro frame member
      rw [top]
      exact List.mem_cons_of_mem _ member
    refine { inv with
      unswitched := unswitched, dispatch := ⟨same.todo, ?_, ?_⟩, removal := ?_, gone := ?_
      silenced := ?_ }
    · intro member
      exact absurd (inside member) settled.1
    · intro member reads
      exact absurd reads (settled.2 (inside member))
    · intro member
      exact inv.removal (inside member)
    · simpa [destroyed, top] using inv.gone
    · intro some
      simpa [top, Frame.tells] using inv.silenced some
  | @exec w r frame rest t top did =>
    refine life_exec lawful order inv top did ?_
    rintro rfl
    exact gate w r rfl (by rw [top]; rfl)
  | failed top why => exact absurd why (life_never_fails lawful inv top)
  | queueTask | ownerRemoves =>
    exact { inv with unswitched := unswitched, dispatch := ⟨same.todo, same.hang, same.read⟩ }
end TcpConnection
end Muduo
