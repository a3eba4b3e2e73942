import Muduo.Net.TcpClient

/-!
What holds of a client in every order of its calls, of the steps of the loop and of the
ends of its connections.
-/
namespace Muduo
open Lib

/-! ### What the loop does to the connector -/

namespace Connector
variable {s t : Connector} {l : Label} {savedErrno : Errno}

inductive LoopStep (s t : Connector) : Prop where
  | idle (connect : t.connect_ = s.connect_) (state : t.state_ = s.state_)
      (handed : t.handed = s.handed) (connection : t.connection = s.connection)
      (waiting : t.queue.waiting = s.queue.waiting)
  | began (connect : t.connect_ = s.connect_) (rest : s.state_ = .kDisconnected)
      (off : s.connect_ = false → t.state_ = .kDisconnected) (handed : t.handed = s.handed)
      (connection : t.connection = s.connection)
      (waiting : s.queue.waiting = t.queue.waiting ∨
        s.queue.waiting = .startInLoop :: t.queue.waiting)
  | ended (connect : t.connect_ = s.connect_) (before : s.state_ = .kConnecting)
      (state : t.state_ ≠ .kConnecting) (handed : t.handed = s.handed)
      (connection : t.connection = s.connection)
  | handed {sockfd : Nat} (connect : t.connect_ = s.connect_) (wanted : s.connect_ = true)
      (before : s.state_ = .kConnecting) (handed : t.handed = s.handed ++ [sockfd])
      (connection : t.connection = .fresh)
  | passed {f : Functor} (connect : t.connect_ = s.connect_) (state : t.state_ = s.state_)
      (stops : f = .stopInLoop → s.state_ ≠ .kConnecting) (handed : t.handed = s.handed)
      (connection : t.connection = if f = .resetChannel ∧ s.connection = .fresh then .established
        else s.connection)
      (waiting : s.queue.waiting = f :: t.queue.waiting)

theorem startInLoop_off (rest : s.state_ = .kDisconnected) (off : s.connect_ = false) :
    s.startInLoop savedErrno = .ok s := by
  simp [startInLoop, rest, off]

theorem startInLoop_loopStep {u : Connector} (ran : u.startInLoop savedErrno = .ok t)
    (connect : u.connect_ = s.connect_) (state : u.state_ = s.state_)
    (handed : u.handed = s.handed) (connection : u.connection = s.connection)
    (waiting : s.queue.waiting = u.queue.waiting ∨
      s.queue.waiting = .startInLoop :: u.queue.waiting) : LoopStep s t := by
  obtain ⟨rest, started⟩ := startInLoop_cases ran
  have off : s.connect_ = false → t.state_ = .kDisconnected := by
    intro off
    rw [startInLoop_off rest (connect.trans off)] at ran
    exact Except.ok.inj ran ▸ rest
  have same : t.connect_ = u.connect_ ∧ t.handed = u.handed ∧ t.connection = u.connection ∧
      t.queue = u.queue := by
    cases started <;> simp
  obtain ⟨connect', handed', connection', queue⟩ := same
  exact .began (connect'.trans connect) (state.symm.trans rest) off (handed'.trans handed)
    (connection'.trans connection) (queue ▸ waiting)

theorem left_loopStep {u : Connector} {channel : Channel} (left : Left u channel t)
    (before : s.state_ = .kConnecting) (connect : u.connect_ = s.connect_)
    (handed : u.handed = s.handed) (connection : u.connection = s.connection)
    (wanted : t.connection = .fresh → u.connect_ = true) : LoopStep s t := by
  cases left with
  | retried count => exact .ended connect before (by simp) handed connection
  | handed =>
    refine .handed connect ?_ before (congrArg (· ++ [channel.fd]) handed) rfl
    exact connect ▸ wanted rfl
  | dropped => exact .ended connect before (by simp) handed connection

theorem retry_connection (s : Connector) (sockfd : Nat) :
    (s.retry sockfd).connection = s.connection := by
  obtain ⟨timers, delay, -, same⟩ := retry_eq s sockfd
  rw [same]

theorem handleWrite_wanted {channel : Channel} {soError selfConnect : Bool}
    (held : s.channel_ = some channel) (absent : s.connection = .absent)
    (connecting : s.state_ = .kConnecting) (ran : s.handleWrite soError selfConnect = .ok t)
    (fresh : t.connection = .fresh) : s.connect_ = true := by
  by_contra off
  have other : (removed s channel).connection = .absent := absent
  have off' : (removed s channel).connect_ ≠ true := off
  simp only [handleWrite, if_pos connecting, removeAndResetChannel_eq held, ok_bind] at ran
  split at ran
  · obtain rfl := Except.ok.inj ran
    simp [retry_connection, other] at fresh
  · split at ran
    · obtain rfl := Except.ok.inj ran
      simp [retry_connection, other] at fresh
    · obtain rfl := Except.ok.inj ran
      simp [close, other] at fresh

theorem event_loopStep {error write soError selfConnect : Bool} (calm : Calm s)
    (active : s.active = true)
    (ran : { s with active := false }.handleEvent error write soError selfConnect = .ok t) :
    LoopStep s t := by
  obtain ⟨-, working⟩ := calm.dispatched active
  obtain ⟨channel, held, -⟩ := channel_of_connecting calm.sound.tidy working
  obtain ⟨-, -, absent⟩ := connecting_alone calm working
  cases error with
  | true =>
    obtain ⟨u, failed, left, rest⟩ := handleError_left (s := { s with active := false }) held working
    have same : u = t := by
      simp only [handleEvent, if_true, failed, ok_bind] at ran
      cases write with
      | false => exact Except.ok.inj ran
      | true =>
        simp only [handleWrite, rest, if_true, reduceCtorEq, if_false, assertThat_of_true,
          ok_bind] at ran
        exact Except.ok.inj ran
    subst same
    apply left_loopStep left working rfl rfl rfl
    intro fresh
    cases left with
    | retried count => exact absurd (fresh.symm.trans absent) (by simp)
    | handed => cases rest
    | dropped => cases rest
  | false =>
    simp only [handleEvent, Bool.false_eq_true, if_false, pure_eq_ok, ok_bind] at ran
    cases write with
    | false =>
      obtain rfl := Except.ok.inj ran
      exact .idle rfl rfl rfl rfl rfl
    | true =>
      obtain ⟨u, wrote, left⟩ := handleWrite_left (s := { s with active := false }) held working
        soError selfConnect
      have wanted := handleWrite_wanted (s := { s with active := false }) held absent working wrote
      obtain rfl := Except.ok.inj (wrote.symm.trans ran)
      exact left_loopStep left working rfl rfl rfl wanted

theorem stopInLoop_loopStep {queue : Batch Functor} (calm : Calm s)
    (next : s.queue.next = some (.stopInLoop, queue))
    (ran : { s with queue }.stopInLoop = .ok t) : LoopStep s t := by
  by_cases working : s.state_ = .kConnecting
  · obtain ⟨channel, held, -⟩ := channel_of_connecting calm.sound.tidy working
    obtain ⟨-, -, absent⟩ := connecting_alone calm working
    have held' : { s with queue, state_ := .kDisconnected }.channel_ = some channel := held
    simp only [stopInLoop, if_pos working, removeAndResetChannel_eq held', ok_bind,
      pure_eq_ok] at ran
    obtain rfl := Except.ok.inj ran
    obtain ⟨timers, delay, -, same⟩ :=
      retry_eq (removed { s with queue, state_ := .kDisconnected } channel) channel.fd
    rw [same]
    exact .ended rfl working (by simp) rfl rfl
  · rw [stopInLoop, if_neg working] at ran
    obtain rfl := Except.ok.inj ran
    refine .passed rfl rfl (fun _ => working) rfl ?_ (Batch.waiting_next next)
    simp

theorem perform_loopStep (calm : Calm s) (loop : l.ofLoop = true)
    (performed : s.perform l = some (.ok t)) : LoopStep s t := by
  cases l with
  | start | stop | restart | connectionClosed => cases loop
  | poll ready =>
    simp only [perform] at performed
    split at performed <;> cases performed
    exact .idle rfl rfl rfl rfl rfl
  | event error write soError selfConnect =>
    simp only [perform] at performed
    split at performed
    · next active => exact event_loopStep calm active.2 (Option.some.inj performed)
    · cases performed
  | timer i savedErrno =>
    simp only [perform] at performed
    split at performed
    · exact startInLoop_loopStep (Option.some.inj performed) rfl rfl rfl rfl (.inl rfl)
    · cases performed
  | swap =>
    simp only [perform] at performed
    split at performed <;> cases performed
    next ended => exact .idle rfl rfl rfl rfl (Batch.waiting_swap (calm.sound.tidy.idle ended.1))
  | functor savedErrno =>
    simp only [perform] at performed
    split at performed
    · obtain ⟨⟨f, queue⟩, next, ran⟩ := Option.map_eq_some_iff.mp performed
      have waiting := Batch.waiting_next next
      cases f with
      | startInLoop => exact startInLoop_loopStep ran rfl rfl rfl rfl (.inr waiting)
      | stopInLoop => exact stopInLoop_loopStep calm next ran
      | resetChannel =>
        obtain ⟨_, -, rest⟩ := bind_eq_ok.mp ran
        obtain rfl := Except.ok.inj rest
        refine .passed rfl rfl (by simp) rfl ?_ waiting
        simp
    · cases performed

theorem quiet_loopStep (taken : LoopStep s t) (quiet : s.connect_ = false ∨ s.state_ = .kConnected)
    (stopping : s.state_ = .kConnecting → .stopInLoop ∈ s.queue.waiting) :
    t.handed = s.handed ∧ t.connect_ = s.connect_ ∧
      (t.connect_ = false ∨ t.state_ = .kConnected) ∧
      (t.state_ = .kConnecting → .stopInLoop ∈ t.queue.waiting) := by
  cases taken with
  | idle connect state handed connection waiting =>
    rw [connect, state, waiting]
    exact ⟨handed, rfl, quiet, stopping⟩
  | began connect rest skipped handed connection waiting =>
    have off : s.connect_ = false := quiet.resolve_right (by simp [rest])
    exact ⟨handed, connect, .inl (connect.trans off), by simp [skipped off]⟩
  | ended connect before state handed connection =>
    have off : s.connect_ = false := quiet.resolve_right (by simp [before])
    exact ⟨handed, connect, .inl (connect.trans off), fun connecting => absurd connecting state⟩
  | handed connect wanted before handed connection => simp [wanted, before] at quiet
  | passed connect state stops handed connection waiting =>
    rw [connect, state]
    refine ⟨handed, rfl, quiet, ?_⟩
    intro connecting
    have member := stopping connecting
    rw [waiting] at member
    rcases List.mem_cons.mp member with same | later
    · exact absurd connecting (stops same.symm)
    · exact later

theorem free_of_idle (calm : Calm s) (empty : s.queue.waiting = [])
    (resting : s.state_ ≠ .kConnecting) : s.channel_ = none := by
  have resets := calm.sound.tidy.resets
  rw [empty, List.count_nil] at resets
  have out := mt calm.sound.tidy.connecting.mpr resting
  cases held : s.channel_ with
  | none => rfl
  | some channel => cases added : channel.addedToLoop_ <;> simp [held, added] at resets out

end Connector

/-! ### The client -/

namespace TcpClient
variable {s t : TcpClient} {l : Label} {c : Connection} {connector : Connector} {i : Nat}

structure Up (s : TcpClient) (i : Nat) (c : Connection) : Prop where
  last : i + 1 = s.connections.length
  handed : s.connector_.connection = .fresh ∨ s.connector_.connection = .established
  own : c.detached = !s.alive
  known : s.alive = true → s.connection_ = some i

structure Sane (s : TcpClient) : Prop where
  running : s.fault = none
  calm : s.connector_.Calm
  up : ∀ (i : Nat) c, s.connections[i]? = some c → c.state_ ≠ .kDisconnected → Up s i c
  current : ∀ i, s.connection_ = some i → s.alive = true ∧
    ∃ c, s.connections[i]? = some c ∧ c.state_ ≠ .kDisconnected
  handing : s.handing = true → s.alive = true ∧ s.restarting = false ∧
    s.connector_.connection = .fresh ∧
    ∀ (i : Nat) c, s.connections[i]? = some c → c.state_ = .kDisconnected
  restart : s.restarting = true → s.alive = true ∧ s.connector_.connection = .closed
  /-- Without a client the connector hands nothing over. -/
  quiet : s.alive = false → s.connector_.connect_ = false ∨ s.connector_.state_ = .kConnected
  stopping : s.alive = false → s.connector_.state_ = .kConnecting →
    .stopInLoop ∈ s.connector_.queue.waiting
  empty : s.alive = false → s.kept = false → s.connector_.queue.waiting = []
  /-- connectDestroyed is queued or has run once for each connection that was closed. -/
  torn : ∀ (i : Nat) c, s.connections[i]? = some c →
    c.destroyed + s.destroys.count i = if c.state_ = .kDisconnected then 1 else 0
  queued : ∀ i ∈ s.destroys, i < s.connections.length

theorem Up.only {j : Nat} {c' : Connection} (up : Up s i c) (up' : Up s j c') : i = j :=
  Nat.succ_injective (up.last.trans up'.last.symm)

theorem connected_of_up (calm : s.connector_.Calm) (up : Up s i c) :
    s.connector_.state_ = .kConnected := by
  apply calm.handed
  rcases up.handed with fresh | established
  · simp [fresh]
  · simp [established]

theorem settle_eq (sane : Sane s) : s.settle = .ok s := by
  have free : s.held = true ∨ s.connector_.channel_ = none := by
    by_cases held : s.held = true
    · exact .inl held
    · right
      simp only [TcpClient.held, Bool.or_eq_true, not_or, Bool.not_eq_true] at held
      have empty := sane.empty held.1.1 held.1.2
      apply Connector.free_of_idle sane.calm empty
      intro connecting
      have stops := sane.stopping held.1.1 connecting
      simp [empty] at stops
  simp [settle, free]

theorem sane_init (nameArg : List Char) : Sane (init nameArg) where
  running := rfl
  calm := Connector.vacant_calm
    ⟨rfl, Connector.sound_init, ⟨rfl, rfl, rfl, List.not_mem_nil⟩, rfl, rfl⟩
  up := by simp [init]
  current := by simp [init]
  handing := by simp [init]
  restart := by simp [init]
  quiet := by simp [init]
  stopping := by simp [init]
  empty := by simp [init]
  torn := by simp [init]
  queued := by simp [init]

/-! ### Steps of the loop -/

theorem sane_connector (sane : Sane s) (calm : connector.Calm)
    (connection : connector.connection = s.connector_.connection ∨ s.handing = false ∧
      s.connector_.connection = .fresh ∧ connector.connection = .established)
    (quiet : s.alive = false → connector.connect_ = false ∨ connector.state_ = .kConnected)
    (stopping : s.alive = false → connector.state_ = .kConnecting →
      .stopInLoop ∈ connector.queue.waiting)
    (empty : s.alive = false → s.kept = false → connector.queue.waiting = []) :
    Sane { s with connector_ := connector } := by
  refine { sane with calm, quiet, stopping, empty, up := ?_, handing := ?_, restart := ?_ }
  · intro i c found open_
    have up := sane.up i c found open_
    refine ⟨up.last, ?_, up.own, up.known⟩
    rcases connection with same | ⟨-, -, established⟩
    · exact same ▸ up.handed
    · exact .inr established
  · intro (handing : s.handing = true)
    obtain ⟨alive, idle, fresh, closed⟩ := sane.handing handing
    refine ⟨alive, idle, ?_, closed⟩
    rcases connection with same | ⟨none_, -⟩
    · exact same.trans fresh
    · simp [handing] at none_
  · intro restarting
    obtain ⟨alive, closed⟩ := sane.restart restarting
    refine ⟨alive, ?_⟩
    rcases connection with same | ⟨-, fresh, -⟩
    · exact same.trans closed
    · simp [closed] at fresh

theorem sane_loopStep (sane : Sane s) (none' : s.handing = false) (calm : connector.Calm)
    (taken : s.connector_.LoopStep connector) (none_ : connector.handed = s.connector_.handed) :
    Sane { s with connector_ := connector } := by
  have still := fun gone => Connector.quiet_loopStep taken (sane.quiet gone) (sane.stopping gone)
  apply sane_connector sane calm ?_ (fun gone => (still gone).2.2.1) (fun gone => (still gone).2.2.2)
  · intro gone released
    have empty := sane.empty gone released
    cases taken with
    | idle connect state handed connection waiting => exact waiting.trans empty
    | began connect rest off handed connection waiting =>
      rcases waiting with same | popped
      · exact same ▸ empty
      · simp [popped] at empty
    | ended connect before state handed connection =>
      have stops := sane.stopping gone before
      simp [empty] at stops
    | handed connect wanted before handed connection => simp [handed] at none_
    | passed connect state stops handed connection waiting => simp [waiting] at empty
  · cases taken with
    | idle | began | ended => left; assumption
    | handed connect wanted before handed connection => simp [handed] at none_
    | @passed f connect state stops handed connection waiting =>
      by_cases reset : f = .resetChannel ∧ s.connector_.connection = .fresh
      · exact .inr ⟨none', reset.2, connection.trans (if_pos reset)⟩
      · exact .inl (connection.trans (if_neg reset))

theorem all_closed (sane : Sane s) (connecting : s.connector_.state_ ≠ .kConnected)
    (found : s.connections[i]? = some c) : c.state_ = .kDisconnected := by
  by_contra open_
  exact connecting (connected_of_up sane.calm (sane.up i c found open_))

theorem busy_eq_false : s.busy = false ↔ s.handing = false ∧ s.restarting = false := by
  simp [busy]

theorem handing_sane (sane : Sane s) (idle : s.restarting = false) (calm : connector.Calm)
    (wanted : s.connector_.connect_ = true) (before : s.connector_.state_ = .kConnecting)
    (fresh : connector.connection = .fresh) :
    Sane { s with connector_ := connector, handing := true } := by
  have alive : s.alive = true := by
    by_contra gone
    rcases sane.quiet (by simpa using gone) with off | connected
    · simp [wanted] at off
    · simp [before] at connected
  have closed : ∀ (i : Nat) c, s.connections[i]? = some c → c.state_ = .kDisconnected :=
    fun _ _ found => all_closed sane (by simp [before]) found
  exact { sane with
    calm, up := fun i c found open_ => absurd (closed i c found) open_
    handing := fun _ => ⟨alive, idle, fresh, closed⟩, restart := by simp [idle]
    quiet := by simp [alive], stopping := by simp [alive], empty := by simp [alive] }

theorem newConnection_sane (sane : Sane s) (handing : s.handing = true) (sockfd : Nat)
    (peer : List Char) : ∃ t, s.newConnection sockfd peer = .ok t ∧ Sane t := by
  obtain ⟨alive, idle, fresh, closed⟩ := sane.handing handing
  let made : Connection :=
    { sockfd, name_ := connName s.name_ peer s.nextConnId_, state_ := .kConnected }
  have entries : ∀ (i : Nat) c, (s.connections ++ [made])[i]? = some c →
      s.connections[i]? = some c ∨ i = s.connections.length ∧ c = made := by
    intro i c found
    rw [List.getElem?_append] at found
    split at found
    · exact .inl found
    · obtain ⟨first, same⟩ := List.getElem?_eq_some_iff.mp found
      simp only [List.length_singleton] at first
      exact .inr ⟨by omega, by simpa using same.symm⟩
  refine ⟨_, by rw [newConnection, assertThat_of_true alive]; rfl, ?_⟩
  refine { sane with
    up := ?_, current := ?_, handing := by simp, restart := by simp [idle]
    quiet := by simp [alive], stopping := by simp [alive], empty := by simp [alive]
    torn := ?_, queued := ?_ }
  · intro i c found open_
    rcases entries i c found with old | ⟨rfl, rfl⟩
    · exact absurd (closed i c old) open_
    · exact ⟨by simp, .inl fresh, by simp [made, alive], fun _ => rfl⟩
  · intro i current
    obtain rfl := Option.some.inj current
    exact ⟨alive, made, List.getElem?_concat_length, by simp [made]⟩
  · intro i c found
    rcases entries i c found with old | ⟨rfl, rfl⟩
    · exact sane.torn i c old
    · have new : s.connections.length ∉ s.destroys := fun member =>
        Nat.lt_irrefl _ (sane.queued _ member)
      simp [made, List.count_eq_zero_of_not_mem new]
  · intro i member
    have inside := sane.queued i member
    simp only [List.length_append, List.length_singleton]
    omega

theorem follow_sane (sane : Sane s) (idle : s.busy = false) (calm : connector.Calm)
    (taken : s.connector_.LoopStep connector) :
    ∃ t, s.follow connector = .ok t ∧ Sane t := by
  obtain ⟨none', idle⟩ := busy_eq_false.mp idle
  unfold follow
  by_cases none_ : connector.handed.length = s.connector_.handed.length
  · have same : connector.handed = s.connector_.handed := by
      cases taken with
      | idle | began | ended | passed => assumption
      | handed connect wanted before handed connection => simp [handed] at none_
    have after := sane_loopStep sane none' calm taken same
    rw [show s.handing = decide (connector.handed.length ≠ s.connector_.handed.length) by
      simp [none', none_]] at after
    exact ⟨_, settle_eq after, after⟩
  · cases taken with
    | idle connect state handed | began connect rest off handed | ended connect before state handed
    | passed connect state stops handed => simp [handed] at none_
    | handed connect wanted before handed connection =>
      rw [decide_eq_true none_]
      have after := handing_sane sane idle calm wanted before connection
      exact ⟨_, settle_eq after, after⟩

/-! ### The ends of connections -/

theorem modify_entry {xs : List Connection} {f : Connection → Connection} {j : Nat}
    (found : (xs.modify i f)[j]? = some c) :
    (j ≠ i ∧ xs[j]? = some c) ∨ (j = i ∧ ∃ old, xs[i]? = some old ∧ c = f old) := by
  rw [List.getElem?_modify] at found
  by_cases same : i = j
  · subst same
    obtain ⟨old, there, rfl⟩ := Option.map_eq_some_iff.mp found
    exact .inr ⟨rfl, old, there, by simp⟩
  · obtain ⟨old, there, rfl⟩ := Option.map_eq_some_iff.mp found
    exact .inl ⟨Ne.symm same, by simpa [same] using there⟩

theorem closed_sane (sane : Sane s) (found : s.connections[i]? = some c)
    (open_ : c.state_ ≠ .kDisconnected) (established : s.connector_.connection = .established)
    (idle : s.handing = false) (restarting : Bool) (restart : restarting = true → s.alive = true) :
    Sane { { s with connector_ := { s.connector_ with connection := .closed } }.setState i
      .kDisconnected with
        connection_ := none, destroys := s.destroys ++ [i], restarting } := by
  have up := sane.up i c found open_
  have none_ : c.destroyed + s.destroys.count i = 0 := by
    rw [sane.torn i c found, if_neg open_]
  refine { sane with calm := ?_, up := ?_, current := ?_, torn := ?_, queued := ?_
                     handing := by simp [setState, idle]
                     restart := fun restarts => ⟨restart restarts, rfl⟩ }
  · have performed : s.connector_.perform .connectionClosed =
        some (.ok { s.connector_ with connection := .closed }) := if_pos established
    have orderly : s.connector_.Orderly .connectionClosed := trivial
    obtain ⟨t, same, calm⟩ := Connector.perform_calm sane.calm orderly performed
    exact Except.ok.inj same ▸ calm
  · intro j c' there open'
    rcases modify_entry there with ⟨other, old⟩ | ⟨rfl, old, -, rfl⟩
    · exact absurd ((sane.up j c' old open').only up) other
    · exact absurd rfl open'
  · intro j current
    cases current
  · intro j c' there
    simp only [List.count_append]
    rcases modify_entry there with ⟨other, old⟩ | ⟨rfl, old, old_found, rfl⟩
    · rw [List.count_singleton, if_neg (by simpa using Ne.symm other)]
      exact sane.torn j c' old
    · obtain rfl := Option.some.inj (found.symm.trans old_found)
      simp only [if_true, List.count_singleton_self]
      omega
  · intro j member
    simp only [setState, List.length_modify]
    rcases List.mem_append.mp member with old | new
    · exact sane.queued j old
    · obtain rfl := List.mem_singleton.mp new
      have last := up.last
      omega

theorem handleClose_sane (sane : Sane s) (idle : s.busy = false)
    (found : s.connections[i]? = some c) (open_ : c.state_ ≠ .kDisconnected)
    (established : s.connector_.connection = .established) :
    ∃ t, s.handleClose i c = .ok t ∧ Sane t := by
  obtain ⟨none', idle⟩ := busy_eq_false.mp idle
  have up := sane.up i c found open_
  by_cases detached : c.detached = true
  · have gone : s.alive = false := by simpa [up.own] using detached
    have unknown : s.connection_ = none := by
      by_contra some_
      obtain ⟨j, current⟩ := Option.ne_none_iff_exists'.mp some_
      simp [(sane.current j current).1] at gone
    refine ⟨_, if_pos detached, ?_⟩
    have closed := closed_sane sane found open_ established none' false (by simp)
    rw [← unknown, ← idle] at closed
    exact closed
  · have alive : s.alive = true := by
      have own := up.own
      simp only [Bool.not_eq_true] at detached
      simpa [detached] using own
    refine ⟨_, ?_, closed_sane sane found open_ established none' (s.retry_ && s.connect_)
      fun _ => alive⟩
    rw [handleClose, if_neg detached, removeConnection]
    rw [assertThat_of_true (by exact alive), ok_bind, assertThat_of_true (by exact up.known alive)]
    rfl

theorem sane_entries {connections : List Connection} {destroys : List Nat} (sane : Sane s)
    (size : connections.length = s.connections.length)
    (kept : ∀ (j : Nat) c, connections[j]? = some c → ∃ old, s.connections[j]? = some old ∧
      (c.state_ = .kDisconnected ↔ old.state_ = .kDisconnected) ∧ c.detached = old.detached ∧
      c.destroyed + destroys.count j = old.destroyed + s.destroys.count j)
    (queued : ∀ i ∈ destroys, i ∈ s.destroys) : Sane { s with connections, destroys } := by
  refine { sane with up := ?_, current := ?_, handing := ?_, torn := ?_, queued := ?_ }
  · intro j c found open_
    obtain ⟨old, there, state, detached, -⟩ := kept j c found
    have up := sane.up j old there (mt state.mpr open_)
    exact ⟨up.last.trans size.symm, up.handed, detached.trans up.own, up.known⟩
  · intro j current
    obtain ⟨alive, old, there, open_⟩ := sane.current j current
    have inside : j < connections.length := size ▸ (List.getElem?_eq_some_iff.mp there).1
    obtain ⟨old', there', state, -⟩ := kept j _ (List.getElem?_eq_getElem inside)
    obtain rfl := Option.some.inj (there.symm.trans there')
    exact ⟨alive, _, List.getElem?_eq_getElem inside, mt state.mp open_⟩
  · intro handing
    obtain ⟨alive, idle, fresh, closed⟩ := sane.handing handing
    refine ⟨alive, idle, fresh, fun j c found => ?_⟩
    obtain ⟨old, there, state, -⟩ := kept j c found
    exact state.mpr (closed j old there)
  · intro j c found
    obtain ⟨old, there, state, -, torn⟩ := kept j c found
    rw [torn, sane.torn j old there]
    simp only [state]
  · intro j member
    exact size ▸ sane.queued j (queued j member)

theorem connectDestroyed_sane {rest : List Nat} (sane : Sane s) (next : s.destroys = i :: rest) :
    Sane { s with
      destroys := rest
      connections := s.connections.modify i fun c => { c with destroyed := c.destroyed + 1 } } := by
  apply sane_entries sane (List.length_modify ..)
  · intro j c found
    rw [next, List.count_cons]
    rcases modify_entry found with ⟨other, there⟩ | ⟨rfl, old, there, rfl⟩
    · have here : (i == j) = false := by simpa using Ne.symm other
      exact ⟨c, there, Iff.rfl, rfl, by simp [here]⟩
    · refine ⟨old, there, Iff.rfl, rfl, ?_⟩
      simp only [beq_self_eq_true, if_true]
      omega
  · intro j member
    exact next ▸ List.mem_cons_of_mem _ member

/-! ### Calls -/

theorem sane_flags (sane : Sane s) (retry_ connect_ : Bool) : Sane { s with retry_, connect_ } :=
  { sane with up := fun i c found open_ => { sane.up i c found open_ with } }

theorem sane_again (sane : Sane s) (alive : s.alive = true) (idle : s.handing = false)
    (closed : ∀ (i : Nat) c, s.connections[i]? = some c → c.state_ = .kDisconnected)
    (calm : connector.Calm) :
    Sane { s with connector_ := connector, restarting := false } :=
  { sane with
    calm, up := fun i c found open_ => absurd (closed i c found) open_
    handing := by simp [idle], restart := by simp
    quiet := by simp [alive], stopping := by simp [alive], empty := by simp [alive] }

theorem connect_sane (sane : Sane s) (alive : s.alive = true) (rest : s.connector_.AtRest)
    (inLoopThread : Bool) (savedErrno : Connector.Errno) :
    ∃ t, s.connect inLoopThread savedErrno = .ok t ∧ Sane t := by
  obtain ⟨connector, started, calm⟩ :=
    Connector.start_calm sane.calm rest inLoopThread savedErrno
  obtain ⟨absent, -⟩ := Connector.idle_of_disconnected sane.calm rest.state
  have idle : s.restarting = false := by
    by_contra restarting
    have closed := (sane.restart (by simpa using restarting)).2
    simp [absent] at closed
  have none' : s.handing = false := by
    by_contra handing
    have fresh := (sane.handing (by simpa using handing)).2.2.1
    simp [absent] at fresh
  have again := sane_again sane alive none'
    (fun _ _ found => all_closed sane (by simp [rest.state]) found) calm
  rw [← idle] at again
  exact ⟨_, by rw [connect, started]; rfl, sane_flags again s.retry_ true⟩

theorem restart_sane (sane : Sane s) (restarting : s.restarting = true)
    (savedErrno : Connector.Errno) :
    ∃ connector, s.connector_.restart savedErrno = .ok connector ∧
      Sane { s with connector_ := connector, restarting := false } := by
  obtain ⟨alive, closed⟩ := sane.restart restarting
  obtain ⟨connector, restarted, calm⟩ := Connector.restart_calm sane.calm closed savedErrno
  have none' : s.handing = false := by
    by_contra handing
    have idle := (sane.handing (by simpa using handing)).2.1
    simp [restarting] at idle
  refine ⟨connector, restarted, sane_again sane alive none' ?_ calm⟩
  intro i c found
  by_contra open_
  have handed := (sane.up i c found open_).handed
  simp [closed] at handed

theorem stop_calm (sane : Sane s) : s.connector_.stop.Calm := by
  have orderly : s.connector_.Orderly .stop := trivial
  obtain ⟨t, same, calm⟩ := Connector.perform_calm sane.calm orderly rfl
  exact Except.ok.inj same ▸ calm

theorem stop_sane (sane : Sane s) (alive : s.alive = true) : Sane s.stop := by
  have stopped := sane_connector sane (stop_calm sane) (.inl rfl) (by simp [alive])
    (by simp [alive]) (by simp [alive])
  exact sane_flags stopped s.retry_ false

theorem shutdown_entry {connections : List Connection} {known : Option Nat} {j : Nat}
    (found : (shutdown connections known)[j]? = some c) :
    ∃ old, connections[j]? = some old ∧
      (c.state_ = .kDisconnected ↔ old.state_ = .kDisconnected) ∧ c.detached = old.detached ∧
      c.destroyed = old.destroyed := by
  cases known with
  | none => exact ⟨c, found, Iff.rfl, rfl, rfl⟩
  | some i =>
    rcases modify_entry found with ⟨-, there⟩ | ⟨rfl, old, there, rfl⟩
    · exact ⟨c, there, Iff.rfl, rfl, rfl⟩
    · refine ⟨old, there, ?_, rfl, rfl⟩
      by_cases connected : old.state_ = .kConnected
      · simp [connected]
      · simp [connected]

theorem length_shutdown (connections : List Connection) (known : Option Nat) :
    (shutdown connections known).length = connections.length := by
  cases known <;> simp [shutdown]

theorem disconnect_sane (sane : Sane s) : Sane s.disconnect := by
  have entries : Sane { s with connections := shutdown s.connections s.connection_ } := by
    apply sane_entries sane (length_shutdown s.connections s.connection_)
    · intro j c found
      obtain ⟨old, there, state, detached, destroyed⟩ := shutdown_entry found
      exact ⟨old, there, state, detached, by rw [destroyed]⟩
    · exact fun _ member => member
  exact sane_flags entries s.retry_ false

theorem destroy_sane (sane : Sane s) (alive : s.alive = true) (idle : s.busy = false)
    (orderly : s.connection_ ≠ none → s.connector_.queue.waiting = []) (unique : Bool) :
    ∃ t, s.destroy unique = .ok t ∧ Sane t := by
  obtain ⟨none', idle⟩ := busy_eq_false.mp idle
  unfold destroy
  split
  · next i known =>
    obtain ⟨-, c, found, open_⟩ := sane.current i known
    have up := sane.up i c found open_
    have connected := connected_of_up sane.calm up
    have empty := orderly (by simp [known])
    have released : Sane { s with
        alive := false, connection_ := none
        connections := s.connections.modify i fun c => { c with
          detached := true
          state_ := if unique ∧ c.state_ ≠ .kDisconnected then .kDisconnecting else c.state_ } } := by
      have closing : ∀ c : Connection, (if unique ∧ c.state_ ≠ .kDisconnected then
          TcpConnection.StateE.kDisconnecting else c.state_) = .kDisconnected ↔
          c.state_ = .kDisconnected := by
        intro c
        split
        · next forced => simp [forced.2]
        · exact Iff.rfl
      refine { sane with
        up := ?_, current := ?_, handing := by simp [none'], restart := by simp [idle]
        quiet := fun _ => .inr connected, stopping := by simp [connected], empty := fun _ _ => empty, torn := ?_, queued := ?_ }
      · intro j c' there open'
        rcases modify_entry there with ⟨other, old⟩ | ⟨rfl, old, old_found, rfl⟩
        · exact absurd ((sane.up j c' old open').only up) other
        · exact ⟨by simpa using up.last, up.handed, rfl, by simp⟩
      · intro j current
        cases current
      · intro j c' there
        rcases modify_entry there with ⟨-, old⟩ | ⟨rfl, old, old_found, rfl⟩
        · exact sane.torn j c' old
        · have torn := sane.torn j old old_found
          simp only [closing]
          exact torn
      · intro j member
        have inside := sane.queued j member
        simpa using inside
    exact ⟨_, settle_eq released, released⟩
  · next known =>
    have stopped : Sane { s with alive := false, kept := true, connector_ := s.connector_.stop } := by
      refine { sane with
        calm := stop_calm sane, up := ?_, current := ?_, handing := by simp [none']
        restart := by simp [idle], quiet := fun _ => .inl rfl, stopping := ?_, empty := by simp }
      · intro i c found open_
        have current := (sane.up i c found open_).known alive
        simp [known] at current
      · intro i current
        simp [known] at current
      · intro _ _
        simp [Connector.stop, Connector.queueInLoop]
    exact ⟨_, settle_eq stopped, stopped⟩

theorem release_sane (sane : Sane s) (orderly : s.connector_.queue.waiting = []) :
    ∃ t, settle { s with kept := false } = .ok t ∧ Sane t := by
  have released : Sane { s with kept := false } := { sane with
    up := fun i c found open_ => { sane.up i c found open_ with }, empty := fun _ _ => orderly }
  exact ⟨_, settle_eq released, released⟩

/-! ### Runs -/

theorem held_of_enabled {l : Connector.Label} {performed : Checked Connector} (sane : Sane s)
    (loop : l.ofLoop = true) (enabled : s.connector_.perform l = some performed) :
    s.held = true ∨ l.waits = true := by
  by_contra none_
  obtain ⟨unheld, works⟩ := not_or.mp none_
  simp only [TcpClient.held, Bool.or_eq_true, Bool.not_eq_true', not_or, Bool.not_eq_true,
    Bool.not_eq_false, List.isEmpty_iff] at unheld
  obtain ⟨⟨gone, released⟩, timers⟩ := unheld
  have empty := sane.empty gone released
  cases l with
  | start | stop | restart | connectionClosed => cases loop
  | poll | swap => exact works rfl
  | event error write soError selfConnect =>
    simp only [Connector.perform] at enabled
    split at enabled
    · next active =>
      have stops := sane.stopping gone (sane.calm.dispatched active.2).2
      simp [empty] at stops
    · cases enabled
  | timer i savedErrno =>
    simp [Connector.perform, timers] at enabled
  | functor savedErrno =>
    simp only [Connector.perform] at enabled
    split at enabled
    · obtain ⟨⟨f, queue⟩, next, -⟩ := Option.map_eq_some_iff.mp enabled
      simp [Batch.waiting_next next] at empty
    · cases enabled

theorem loop_sane {l : Connector.Label} {performed : Checked Connector} (sane : Sane s)
    (idle : s.busy = false) (loop : l.ofLoop = true)
    (enabled : s.connector_.perform l = some performed) (orderly : s.connector_.Orderly l) :
    ∃ t, (do
      assertThat (s.held ∨ l.waits) "the connector exists"
      let connector ← performed
      s.follow connector) = Except.ok t ∧ Sane t := by
  have held := held_of_enabled sane loop enabled
  obtain ⟨connector, rfl, calm⟩ := Connector.perform_calm sane.calm orderly enabled
  have taken := Connector.perform_loopStep sane.calm loop enabled
  obtain ⟨t, followed, after⟩ := follow_sane sane idle calm taken
  exact ⟨t, by rw [assertThat_of_true held]; exact followed, after⟩

theorem perform_sane {performed : Checked TcpClient} (sane : Sane s) (orderly : Orderly s l)
    (enabled : s.perform l = some performed) : ∃ t, performed = .ok t ∧ Sane t := by
  cases l with
  | connect inLoopThread savedErrno =>
    obtain ⟨alive, ⟨⟩⟩ := Option.ite_none_right_eq_some.mp enabled
    exact connect_sane sane alive orderly inLoopThread savedErrno
  | disconnect =>
    obtain ⟨-, ⟨⟩⟩ := Option.ite_none_right_eq_some.mp enabled
    exact ⟨_, rfl, disconnect_sane sane⟩
  | stop =>
    obtain ⟨alive, ⟨⟩⟩ := Option.ite_none_right_eq_some.mp enabled
    exact ⟨_, rfl, stop_sane sane alive⟩
  | enableRetry =>
    obtain ⟨-, ⟨⟩⟩ := Option.ite_none_right_eq_some.mp enabled
    exact ⟨_, rfl, sane_flags sane true s.connect_⟩
  | loop l =>
    obtain ⟨⟨idle, loop⟩, enabled⟩ := Option.ite_none_right_eq_some.mp enabled
    obtain ⟨performed, acted, rfl⟩ := Option.map_eq_some_iff.mp enabled
    have orderly' : s.connector_.Orderly l := by
      cases l with
      | start | stop | restart | connectionClosed => cases loop
      | timer => exact orderly
      | poll | event | swap | functor => trivial
    exact loop_sane sane idle loop acted orderly'
  | newConnection peer =>
    obtain ⟨handing, ⟨⟩⟩ := Option.ite_none_right_eq_some.mp enabled
    exact newConnection_sane sane handing _ peer
  | close i =>
    simp only [perform] at enabled
    split at enabled
    · next c found =>
      obtain ⟨⟨idle, open_, established⟩, ⟨⟩⟩ := Option.ite_none_right_eq_some.mp enabled
      exact handleClose_sane sane idle found open_ established
    · cases enabled
  | restart savedErrno =>
    obtain ⟨restarting, ⟨⟩⟩ := Option.ite_none_right_eq_some.mp enabled
    obtain ⟨connector, restarted, after⟩ := restart_sane sane restarting savedErrno
    exact ⟨_, by rw [restarted]; rfl, after⟩
  | connectDestroyed =>
    simp only [perform] at enabled
    split at enabled
    · next i rest next =>
      obtain ⟨-, ⟨⟩⟩ := Option.ite_none_left_eq_some.mp enabled
      exact ⟨_, rfl, connectDestroyed_sane sane next⟩
    · cases enabled
  | destroy unique =>
    obtain ⟨⟨alive, idle⟩, ⟨⟩⟩ := Option.ite_none_right_eq_some.mp enabled
    exact destroy_sane sane alive idle orderly unique
  | release =>
    obtain ⟨-, ⟨⟩⟩ := Option.ite_none_right_eq_some.mp enabled
    exact release_sane sane orderly

theorem sane_step (sane : Sane s) (orderly : Orderly s l) (taken : machine.step s l = some t) :
    Sane t := by
  obtain ⟨-, performed | ⟨e, performed, -⟩⟩ := faults.step_cases taken
  · obtain ⟨u, same, after⟩ := perform_sane sane orderly performed
    exact Except.ok.inj same ▸ after
  · obtain ⟨u, same, -⟩ := perform_sane sane orderly performed
    cases same

theorem run_sane {nameArg : List Char} {ls : List Label}
    (within : machine.Within Orderly (init nameArg) ls)
    (ran : machine.run (init nameArg) ls = some s) : Sane s :=
  machine.within_invariant Orderly Sane (fun _ _ _ sane orderly taken => sane_step sane orderly taken)
    (sane_init nameArg) within ran

def reconnectedRun : List Label :=
  let peer := "10.0.0.1:80".toList
  [.enableRetry, .connect true .EINPROGRESS, .loop (.poll true),
    .loop (.event false true false false), .newConnection peer, .loop .swap, .loop (.functor .zero),
    .loop (.poll false), .close 0, .restart .EINPROGRESS, .loop .swap, .connectDestroyed,
    .loop (.poll true), .loop (.event false true false false), .newConnection peer, .loop .swap,
    .loop (.functor .zero), .loop (.poll false), .destroy true, .close 1]

end TcpClient
end Muduo
