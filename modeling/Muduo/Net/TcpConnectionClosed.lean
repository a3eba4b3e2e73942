import Muduo.Net.TcpConnectionLife

/-!
A closed connection and the poller. After handleClose the channel stays out of
the poller until connectDestroyed removes it, provided that handleClose found it
registered with epoll and that no startReadInLoop, and no stopReadInLoop with
reading_ still set, runs in between. All API calls are allowed here, and the
owner may tear the connection down.
-/
namespace Muduo
open Lib
namespace TcpConnection
variable {s t : State} {ch : Channel} {frame : Frame} {rest : List Frame}

/-- POLLIN and POLLPRI are asked for together and POLLRDHUP never, so that a bare
    hang-up comes without anything to read. -/
structure Masked (ch : Channel) : Prop where
  pair : ch.events_.pollpri = ch.events_.pollin
  rdhup : ch.events_.pollrdhup = false
  mask : ch.revents_.hangsUp → ¬ch.revents_.reads

theorem masked_updated {events : Events} (inv : Masked ch) (pair : events.pollpri = events.pollin)
    (rdhup : events.pollrdhup = false) :
    Masked (ch.updated events) :=
  ⟨pair, rdhup, inv.mask⟩

theorem masked_union (inv : Masked ch) :
    Masked (ch.updated (ch.events_.union .kReadEvent)) ∧
      Masked (ch.updated (ch.events_.union .kWriteEvent)) := by
  constructor
  · refine masked_updated inv ?_ ?_ <;> simp [Events.union, Events.kReadEvent, inv.rdhup]
  · refine masked_updated inv ?_ ?_ <;> simp [Events.union, Events.kWriteEvent, inv.pair, inv.rdhup]

theorem masked_without (inv : Masked ch) :
    Masked (ch.updated (ch.events_.without .kReadEvent)) ∧
      Masked (ch.updated (ch.events_.without .kWriteEvent)) := by
  constructor
  · refine masked_updated inv ?_ ?_ <;> simp [Events.without, Events.kReadEvent, inv.rdhup]
  · refine masked_updated inv ?_ ?_ <;> simp [Events.without, Events.kWriteEvent, inv.pair, inv.rdhup]

theorem masked_returned {ev : Events} (inv : Masked ch) (legal : ch.events_.Returnable ev) :
    Masked (ch.set_revents ev) := by
  refine ⟨inv.pair, inv.rdhup, ?_⟩
  rintro ⟨hup, no_in⟩ reads
  have no_in : ev.pollin = false := no_in
  obtain ⟨-, pri, -, rdhup, with_in⟩ := legal
  have unread : ch.events_.pollin = false := by
    by_contra asked
    have := with_in hup (by simpa using asked)
    rw [no_in] at this
    cases this
  have no_pri : ev.pollpri = false := by
    by_contra urgent
    have := pri (by simpa using urgent)
    rw [inv.pair, unread] at this
    cases this
  have no_rdhup : ev.pollrdhup = false := by
    by_contra half
    have := rdhup (by simpa using half)
    rw [inv.rdhup] at this
    cases this
  simp [Events.reads, Events.meets, Channel.set_revents, no_in, no_pri, no_rdhup] at reads

theorem did_masked (did : Did s frame t) (inv : Masked s.conn.channel_) :
    Masked t.conn.channel_ := by
  cases did with
  | @send m c out spec =>
    have kept : Masked c.channel_ := by
      rcases spec.channel with ⟨same, -⟩ | ⟨-, updated⟩
      · rw [same]
        exact inv
      · rw [updated]
        exact (masked_union inv).2
    exact kept
  | @write c out drained spec =>
    have kept : Masked c.channel_ := by
      rcases spec.channel with ⟨same, -⟩ | ⟨-, updated⟩
      · rw [same]
        exact inv
      · rw [updated]
        exact (masked_without inv).2
    exact kept
  | halfClose =>
    unfold shutdownInLoop
    split <;> exact inv
  | close | destroy => exact ⟨rfl, rfl, inv.mask⟩
  | establish =>
    obtain ⟨pair, rdhup, mask⟩ := (masked_union inv).1
    exact ⟨pair, rdhup, mask⟩
  | startRead => exact (masked_union inv).1
  | stopRead => exact (masked_without inv).1
  | eventDone | remove => exact ⟨inv.pair, inv.rdhup, inv.mask⟩
  | nothing | user | addTimer | destroyRest | queueForceClose | callback | closeCallback => exact inv

theorem masked_step {l : Label} (sound : s.conn.Sound) (inv : Masked s.conn.channel_)
    (taken : step s l = some t) : Masked t.conn.channel_ := by
  obtain ⟨-, stepped⟩ := stepped sound taken
  cases stepped with
  | threadCall _ asked => cases asked <;> exact inv
  | threadPush =>
    rw [threadPush_conn]
    exact inv
  | introduce _ ran =>
    rw [ownerRan_conn ran]
    exact inv
  | ownerTearsDown _ _ ran =>
    rw [ownerRan_conn ran]
    exact inv
  | pollSome _ _ registered legal =>
    obtain ⟨-, rfl⟩ := slotOf_interest sound.synced registered
    exact masked_returned inv legal
  | dispatch => exact ⟨inv.pair, inv.rdhup, inv.mask⟩
  | fireTimer _ _ _ asked => cases asked <;> exact inv
  | call _ asked => cases asked <;> exact inv
  | exec _ did => exact did_masked did inv
  | queueTask | ownerRemoves | pollNone | otherCode | endHandling | nextFunctor | endFunctors
  | ret | failed => exact inv

def Closed (s : State) : Prop := s.hist.closed = true ∧ s.hist.removals = 0

instance (s : State) : Decidable (Closed s) := inferInstanceAs (Decidable (_ ∧ _))

def Closes (s : State) : Label → Bool
  | .exec _ r => s.stack.head?.any (s.conn.closesNow r)
  | _ => false

/-- The condition on a step: after the close no startReadInLoop runs, and
    stopReadInLoop only when reading_ is false already; handleClose runs only
    while the channel is registered with epoll. -/
structure Guarded (s : State) (l : Label) : Prop where
  start : Closed s → l.isExec = true → s.stack.head? ≠ some (.run .startReadInLoop)
  stop : Closed s → l.isExec = true → s.stack.head? = some (.run .stopReadInLoop) →
    s.conn.reading_ = false
  close : Closes s l = true → s.conn.channel_.index_ = EPollPoller.kAdded

instance (s : State) (l : Label) : Decidable (Guarded s l) :=
  decidable_of_iff
    ((Closed s → l.isExec = true → s.stack.head? ≠ some (.run .startReadInLoop)) ∧
      (Closed s → l.isExec = true → s.stack.head? = some (.run .stopReadInLoop) →
        s.conn.reading_ = false) ∧
      (Closes s l = true → s.conn.channel_.index_ = EPollPoller.kAdded))
    ⟨fun ⟨start, stop, close⟩ => ⟨start, stop, close⟩, fun g => ⟨g.start, g.stop, g.close⟩⟩

def Violation (e : String) : Prop :=
  e = "isNoneEvent()" ∨ e = "state_ == kConnected || state_ == kDisconnecting"

structure Out (s : State) : Prop where
  none : s.conn.channel_.isNoneEvent
  index : s.conn.channel_.index_ = EPollPoller.kDeleted
  todo : s.todo = false
  hang : .hangUpTest ∉ s.stack
  read : .readTest ∈ s.stack → ¬s.conn.channel_.revents_.reads

structure Shut (s : State) : Prop where
  masked : Masked s.conn.channel_
  out : Closed s → Out s
  late : s.hist.lateUpdates = 0
  fine : Closed s → ∀ e, s.fault = some e → ¬Violation e

theorem shut_init (setup : Setup) : Shut (init setup) := by
  refine ⟨⟨rfl, rfl, nofun⟩, nofun, rfl, nofun⟩

theorem deliver_nothing (s : State) : deliver s (s.conn, {}) = s := by
  simp [deliver]

theorem closed_did (did : Did s frame t) (down : s.conn.state_ = .kDisconnected) (out : Out s)
    (start : frame ≠ .run .startReadInLoop)
    (stop : frame = .run .stopReadInLoop → s.conn.reading_ = false) :
    t.hist.lateUpdates = s.hist.lateUpdates ∧
      (0 < t.hist.removals ∨
        t.conn.channel_.isNoneEvent ∧ t.conn.channel_.index_ = EPollPoller.kDeleted) := by
  have none : s.conn.channel_.events_ = .kNoneEvent := out.none
  have dead : ¬s.conn.alive := fun alive => (alive_expected alive).2.2 down
  cases did with
  | send spec =>
    obtain ⟨rfl, rfl⟩ := spec.closed down
    rw [deliver_nothing]
    exact ⟨rfl, Or.inr ⟨out.none, out.index⟩⟩
  | write spec =>
    obtain ⟨rfl, rfl, rfl⟩ := spec.idle (by rw [Conn.isWriting_eq, none]; rfl)
    rw [deliver_nothing]
    exact ⟨rfl, Or.inr ⟨out.none, out.index⟩⟩
  | halfClose =>
    unfold shutdownInLoop
    split <;> exact ⟨rfl, Or.inr ⟨out.none, out.index⟩⟩
  | close _ alive => exact absurd alive dead
  | startRead => exact absurd rfl start
  | stopRead needed =>
    rw [stop rfl, Conn.isReading_eq, none] at needed
    simp [Events.kNoneEvent] at needed
  | establish connecting =>
    rw [down] at connecting
    cases connecting
  | destroy up =>
    rw [down] at up
    cases up
  | remove => exact ⟨rfl, Or.inl (Nat.succ_pos _)⟩
  | nothing | user | addTimer | destroyRest | queueForceClose | eventDone | callback
  | closeCallback => exact ⟨rfl, Or.inr ⟨out.none, out.index⟩⟩

theorem open_did (did : Did s frame t) (not_closed : ¬Closed s) :
    t.hist.lateUpdates = s.hist.lateUpdates ∧
      (Closed t → s.conn.alive ∧ t = closedBy s ∧
        (ClosesFrom s.conn.channel_.revents_ frame ∨ frame = .run .forceCloseInLoop)) := by
  have punctual : ∀ r, (deliver s r).hist.lateUpdates = s.hist.lateUpdates := by
    intro r
    simp only [deliver]
    rw [if_neg (show ¬(s.hist.closed = true ∧ s.hist.removals = 0) from not_closed)]
    rfl
  cases did with
  | close origin alive => exact ⟨punctual _, fun _ => ⟨alive, rfl, origin⟩⟩
  | remove =>
    refine ⟨rfl, ?_⟩
    rintro ⟨-, none_yet⟩
    cases none_yet
  | halfClose =>
    unfold shutdownInLoop
    split <;> exact ⟨rfl, fun closed => absurd closed not_closed⟩
  | send | write | startRead | stopRead | establish | destroy =>
    exact ⟨punctual _, fun closed => absurd closed not_closed⟩
  | nothing | user | addTimer | destroyRest | queueForceClose | eventDone | callback
  | closeCallback => exact ⟨rfl, fun closed => absurd closed not_closed⟩

theorem closing_settles (flow : Flow s)
    (mask : s.conn.channel_.revents_.hangsUp → ¬s.conn.channel_.revents_.reads)
    (top : s.stack = frame :: rest)
    (origin : ClosesFrom s.conn.channel_.revents_ frame ∨ frame = .run .forceCloseInLoop) :
    s.todo = false ∧ (.readTest ∈ rest → ¬s.conn.channel_.revents_.reads) := by
  have here : frame ∈ s.stack := by rw [top]; exact List.mem_cons_self
  have idle : s.current = true ∨ s.phase = .functors → s.todo = false := by
    intro busy
    by_contra ahead
    obtain ⟨handling, -, not_current⟩ := flow.todo (by simpa using ahead)
    rcases busy with current | functors
    · rw [not_current] at current
      cases current
    · rw [handling] at functors
      cases functors
  rcases origin with (⟨rfl, hangs⟩ | ⟨rfl, -⟩) | rfl
  · exact ⟨idle (Or.inl (flow.dispatched (Or.inr here))), fun _ => mask hangs⟩
  · refine ⟨idle (Or.inl (flow.dispatched (Or.inl here))), ?_⟩
    intro again
    have single := flow.single
    have counted := List.count_pos_iff.mpr again
    rw [top, List.count_cons_self] at single
    omega
  · have functors := flow.forced here
    refine ⟨idle (Or.inr functors), ?_⟩
    intro dispatched
    have := flow.current (flow.dispatched (Or.inl (by rw [top]; exact List.mem_cons_of_mem _ dispatched)))
    rw [functors] at this
    cases this

theorem exec_closes {w : WriteResult} {r : ReadResult} (taken : step s (.exec w r) = some t)
    (top : s.stack = frame :: rest) (alive : s.conn.alive)
    (origin : ClosesFrom s.conn.channel_.revents_ frame ∨ frame = .run .forceCloseInLoop)
    (down : t.conn.state_ = .kDisconnected) : Closes s (.exec w r) = true := by
  simp only [Closes, top, List.head?_cons, Option.any_some]
  refine closesNow_of_origin alive origin ?_
  rintro rfl
  simp only [step, top] at taken
  split at taken
  · cases taken
  · split at taken
    · obtain rfl := Option.some.inj taken
      cases ran : execFrame { s with stack := rest } w r .readTest with
      | error e =>
        rw [ran] at down
        exact absurd down (alive_up alive)
      | ok u =>
        rw [ran] at down
        exact endOfFile_of_closed ran alive down
    · cases taken

theorem shut_exec {w : WriteResult} {r : ReadResult} (lawful : Lawful s) (inv : Shut s)
    (guarded : Guarded s (.exec w r)) (taken : step s (.exec w r) = some t)
    (top : s.stack = frame :: rest) (running : t.fault = none)
    (did : Did { s with stack := rest } frame t) : Shut t := by
  obtain ⟨pushed, executed, leaves⟩ := did_executed did
  have tame := leaves_tame leaves
  have stack : t.stack = pushed ++ rest := executed.stack
  have head : s.stack.head? = some frame := by rw [top]; rfl
  have revents := did_revents did
  have no_hang : .hangUpTest ∉ t.stack := by
    rw [stack]
    intro member
    cases lawful.flow.below top _ ((List.mem_append.mp member).resolve_left tame.hangs)
  have in_rest : .readTest ∈ t.stack → .readTest ∈ rest := by
    rw [stack]
    intro member
    exact (List.mem_append.mp member).resolve_left tame.reads
  have masked := did_masked did inv.masked
  have fine : Closed t → ∀ e, t.fault = some e → ¬Violation e := by
    intro _ e failed
    rw [running] at failed
    cases failed
  by_cases closed : Closed s
  · have out := inv.out closed
    have before : Out { s with stack := rest } := by
      refine ⟨out.none, out.index, out.todo, ?_, ?_⟩
      · intro member
        exact out.hang (by rw [top]; exact List.mem_cons_of_mem _ member)
      · intro member
        exact out.read (by rw [top]; exact List.mem_cons_of_mem _ member)
    obtain ⟨late, kept⟩ := closed_did did (lawful.ledger.closed_down closed.1) before
      (fun same => guarded.start closed rfl (same ▸ head))
      (fun same => guarded.stop closed rfl (same ▸ head))
    refine ⟨masked, ?_, late.trans inv.late, fine⟩
    intro still
    rcases kept with removed | ⟨none, index⟩
    · rw [still.2] at removed
      cases removed
    · refine ⟨none, index, executed.todo.trans out.todo, no_hang, ?_⟩
      intro member
      rw [revents]
      exact out.read (by rw [top]; exact List.mem_cons_of_mem _ (in_rest member))
  · obtain ⟨late, closes⟩ := open_did did closed
    refine ⟨masked, ?_, late.trans inv.late, fine⟩
    intro now
    obtain ⟨alive, rfl, origin⟩ := closes now
    have added := guarded.close (exec_closes taken top alive origin rfl)
    obtain ⟨idle, unread⟩ := closing_settles lawful.flow inv.masked.mask top origin
    refine ⟨rfl, ?_, idle, no_hang, ?_⟩
    · simp [closedBy, enter, deliver, Conn.disconnected, Conn.reinterest, Channel.updated, added]
    · intro member
      rw [revents]
      exact unread (in_rest member)

theorem remove_refused {slot : Slot} {view : Channel.LoopView} {e : String}
    (synced : ch.Synced slot) (none : ch.isNoneEvent) (known : ch.index_ ≠ EPollPoller.kNew)
    (refused : ch.remove view slot = .error e) :
    e = "currentActiveChannel_ == channel || find(activeChannels_, channel) == end" := by
  by_cases may : view.MayRemove
  · rw [Channel.remove_spec synced none known may] at refused
    cases refused
  · unfold Channel.remove at refused
    rw [assertThat_of_true none, ok_bind] at refused
    simp only [assertThat_of_false may, error_bind] at refused
    exact (Except.error.inj refused).symm

theorem shut_failed {e : String} (lawful : Lawful s) (inv : Shut s) (top : s.stack = frame :: rest)
    (why : Failed { s with stack := rest } frame e) (closed : Closed s) : ¬Violation e := by
  have out := inv.out closed
  have here : frame ∈ s.stack := by rw [top]; exact List.mem_cons_self
  cases why with
  | close origin =>
    rcases origin with ⟨rfl, -⟩ | ⟨rfl, reads⟩
    · exact absurd here out.hang
    · exact absurd reads (out.read here)
  | establish => simp [Violation]
  | remove refused =>
    have known : s.conn.channel_.index_ ≠ EPollPoller.kNew := by
      rw [out.index]
      exact Channel.kNew_ne_kDeleted.symm
    rw [remove_refused lawful.sound.synced out.none known refused]
    simp [Violation]

theorem Out.put (out : Out s) (hang : frame ≠ .hangUpTest) (read : frame ≠ .readTest) :
    Out { s with stack := frame :: s.stack } := by
  refine ⟨out.none, out.index, out.todo, ?_, ?_⟩
  · intro member
    exact out.hang ((List.mem_cons.mp member).resolve_left fun same => hang same.symm)
  · intro member
    exact out.read ((List.mem_cons.mp member).resolve_left fun same => read same.symm)

theorem Out.ownerRan {f : Functor} (ran : OwnerRan s f t) (out : Out s) : Out t := by
  cases ran with
  | here => exact out.put nofun nofun
  | away => exact { out with }

theorem Out.loopCall {c : Call} {r : Option Request} (out : Out s) (asked : Asked s .loop c t r) :
    Out { t with stack := (r.map Request.frame).toList ++ t.stack } := by
  have kept : Out t ∧ ∀ q, r = some q → q.frame ≠ .hangUpTest ∧ q.frame ≠ .readTest := by
    cases asked <;> exact ⟨{ out with }, by simp [Request.frame]⟩
  cases r with
  | none => exact kept.1
  | some q => exact kept.1.put (kept.2 q rfl).1 (kept.2 q rfl).2

theorem asked_hist {caller : Caller} {c : Call} {r : Option Request} (asked : Asked s caller c t r) :
    t.hist.closed = s.hist.closed ∧ t.hist.removals = s.hist.removals ∧
      t.hist.lateUpdates = s.hist.lateUpdates ∧ t.fault = s.fault := by
  cases asked <;> exact ⟨rfl, rfl, rfl, rfl⟩

theorem shut_quiet (inv : Shut s) (masked : Masked t.conn.channel_) (running : t.fault = none)
    (closed : t.hist.closed = s.hist.closed) (removals : t.hist.removals = s.hist.removals)
    (late : t.hist.lateUpdates = s.hist.lateUpdates) (out : Closed s → Out s → Out t) : Shut t := by
  have same : Closed t → Closed s := by
    rintro ⟨was, none_yet⟩
    exact ⟨closed ▸ was, removals ▸ none_yet⟩
  refine ⟨masked, fun now => out (same now) (inv.out (same now)), late.trans inv.late, ?_⟩
  intro _ e failed
  rw [running] at failed
  cases failed

theorem shut_step {l : Label} (lawful : Lawful s) (inv : Shut s) (guarded : Guarded s l)
    (taken : step s l = some t) : Shut t := by
  have masked := masked_step lawful.sound inv.masked taken
  obtain ⟨running, stepped⟩ := stepped lawful.sound taken
  cases stepped with
  | threadCall _ asked =>
    obtain ⟨closed, removals, late, fault⟩ := asked_hist asked
    refine shut_quiet inv masked (fault.trans running) closed removals late fun _ out => ?_
    cases asked <;> exact { out with }
  | @threadPush n f _ =>
    obtain ⟨returned, pushed⟩ := threadPush_eq s n f
    rw [pushed] at masked ⊢
    exact shut_quiet inv masked running rfl rfl rfl fun _ out => { out with }
  | introduce _ ran | ownerTearsDown _ _ ran =>
    have hist := ownerRan_hist ran
    have fault : t.fault = s.fault := by cases ran <;> rfl
    refine shut_quiet inv masked (fault.trans running) (by rw [hist]) (by rw [hist]) (by rw [hist])
      fun _ out => Out.ownerRan ran { out with }
  | pollNone => exact shut_quiet inv masked running rfl rfl rfl fun _ out => { out with todo := rfl }
  | pollSome _ _ registered =>
    refine shut_quiet inv masked running rfl rfl rfl fun _ out => ?_
    have added := (slotOf_interest lawful.sound.synced registered).1
    rw [out.index] at added
    exact absurd added Channel.kDeleted_ne_kAdded
  | otherCode =>
    refine shut_quiet inv masked running rfl rfl rfl fun _ out => ?_
    have kept : Out { s with current := false } := { out with }
    exact kept.put nofun nofun
  | dispatch _ _ todo =>
    refine shut_quiet inv masked running rfl rfl rfl fun _ out => ?_
    rw [out.todo] at todo
    cases todo
  | fireTimer _ _ _ asked =>
    obtain ⟨closed, removals, late, fault⟩ := asked_hist asked
    refine shut_quiet inv masked (fault.trans running) closed removals late fun _ out => ?_
    have kept : Out { s with timers := s.timers - 1, current := false } := { out with }
    exact kept.loopCall asked
  | @nextFunctor f q =>
    refine shut_quiet inv masked running rfl rfl rfl fun _ out => ?_
    have kept : Out { s with queue := q } := { out with }
    exact kept.put nofun nofun
  | call _ asked =>
    obtain ⟨closed, removals, late, fault⟩ := asked_hist asked
    exact shut_quiet inv masked (fault.trans running) closed removals late fun _ out =>
      out.loopCall asked
  | ret top =>
    refine shut_quiet inv masked running rfl rfl rfl fun _ out => { out with hang := ?_, read := ?_ }
    · intro member
      exact out.hang (by rw [top]; exact List.mem_cons_of_mem _ member)
    · intro member
      exact out.read (by rw [top]; exact List.mem_cons_of_mem _ member)
  | exec top did =>
    obtain ⟨pushed, executed, -⟩ := did_executed did
    exact shut_exec lawful inv guarded taken top (executed.fault.trans running) did
  | failed top why =>
    refine ⟨masked, fun closed => { inv.out closed with }, inv.late, ?_⟩
    intro closed e same
    cases same
    exact shut_failed lawful inv top why closed
  | queueTask | ownerRemoves | endHandling | endFunctors =>
    exact shut_quiet inv masked running rfl rfl rfl fun _ out => { out with }

/-- The peer closes while a send() of another thread is between its test of state_
    and its push; the run ends in the DOWN callback. -/
def peerCloses : List Label :=
  [.introduce, .poll none, .endHandling, .nextFunctor, .exec (.written 0) .data,
    .exec (.written 0) .data, .ret, .endFunctors, .threadCall 7 (.send [1]),
    .poll (some { pollin := true }), .dispatch, .exec (.written 0) .data, .exec (.written 0) .data,
    .exec (.written 0) .endOfFile, .exec (.written 0) .data]

/-- startRead() from the DOWN callback. -/
def startReadInDown : List Label :=
  peerCloses ++ [.call .startRead, .exec (.written 0) .data]

def thenDestroyed : List Label :=
  [.ret, .exec (.written 0) .data, .ownerRemoves, .exec (.written 0) .data,
    .exec (.written 0) .data, .endHandling, .nextFunctor, .exec (.written 0) .data,
    .exec (.written 0) .data]

end TcpConnection
end Muduo
