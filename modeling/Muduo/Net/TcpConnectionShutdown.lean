import Mathlib.Data.List.TakeWhile
import Muduo.Net.TcpConnectionCycle

/-!
send() and shutdown() of several threads. A message whose send() returned before
shutdown() found kConnected is to be written before shutdownWrite(). The queue
keeps this order for a shutdown() of another thread; the loop thread's own
shutdown() and a drained output buffer half-close at once, past messages that
are still queued. Runs in which a write failed for good or the connection was
closed are left out.
-/
namespace Muduo
open Lib
namespace TcpConnection
variable {s t : State} {frame : Frame} {f : Functor} {l : Label} {rest : List Frame} {m : Message}
  {c : Call} {fs : List Functor} {r : Option Request}

def fromShutdown (fs : List Functor) : List Functor := fs.dropWhile fun f => f ≠ .shutdownInLoop

theorem mem_of_fromShutdown (member : f ∈ fromShutdown fs) :
    f ∈ fs :=
  (List.dropWhile_suffix _).subset member

theorem fromShutdown_append {gs : List Functor} (member : f ∈ fromShutdown (fs ++ gs)) :
    f ∈ fromShutdown fs ∨ f ∈ gs := by
  unfold fromShutdown at *
  rw [List.dropWhile_append] at member
  split at member
  · exact Or.inr (mem_of_fromShutdown member)
  · exact List.mem_append.mp member

theorem fromShutdown_nil (none : .shutdownInLoop ∉ fs) : fromShutdown fs = [] := by
  unfold fromShutdown
  rw [List.dropWhile_eq_nil_iff]
  have differs : ∀ f ∈ fs, f ≠ .shutdownInLoop := by
    rintro f member rfl
    exact none member
  simpa using differs

/-- shutdown() has not been called, nor any other function that ends the connection. -/
def Young (c : Conn) : Prop := c.state_ = .kConnecting ∨ c.state_ = .kConnected

structure Fifo (s : State) : Prop where
  known : ∀ m ∈ s.hist.returned, m ∈ s.hist.called
  kept : ∀ m ∈ s.hist.promised, m ∈ s.hist.returned
  entry : ∀ n m, s.threads n = some (.sendInLoop m) → m ∉ s.hist.returned
  early : Young s.conn →
    .shutdownInLoop ∉ s.queue.waiting ∧ .run .shutdownInLoop ∉ s.stack ∧
      ∀ n, s.threads n ≠ some .shutdownInLoop
  behind : ∀ m ∈ s.hist.promised, .sendInLoop m ∉ fromShutdown s.queue.waiting
  now : s.stack = [.run .shutdownInLoop] → ∀ m ∈ s.hist.promised, .sendInLoop m ∉ s.queue.waiting

theorem fifo_init (setup : Setup) : Fifo (init setup) := by
  constructor <;> simp [init, History.empty]

theorem InOrder.called_of_stack (order : InOrder s) (member : m ∈ onStack s) :
    m ∈ s.hist.called := by
  have mine : m ∈ ofCaller m.caller (s.hist.ran ++ onStack s ++ inQueue s ++ atEntry s m.caller) := by
    simp [ofCaller, member]
  rw [← order.order m.caller] at mine
  exact List.mem_of_mem_filter mine

theorem InOrder.called_of_entry {n : Nat} (order : InOrder s)
    (busy : s.threads n = some (.sendInLoop m)) : m ∈ s.hist.called ∧ m.caller = .other n := by
  have member : m ∈ atEntry s (.other n) := by simp [atEntry, busy, Functor.messages]
  have caller := order.entries n m member
  have mine : m ∈ ofCaller m.caller (s.hist.ran ++ onStack s ++ inQueue s ++ atEntry s m.caller) := by
    rw [caller]
    simp [ofCaller, member, caller]
  rw [← order.order m.caller] at mine
  exact ⟨List.mem_of_mem_filter mine, caller⟩

theorem did_returned (did : Did s frame t) :
    t.hist.promised = s.hist.promised ∧
      (t.hist.returned = s.hist.returned ∨
        ∃ m, frame = .run (.sendInLoop m) ∧ m.caller = .loop ∧
          t.hist.returned = s.hist.returned ++ [m]) := by
  cases did with
  | @send m c out _ =>
    by_cases mine : m.caller = .loop
    · exact ⟨rfl, Or.inr ⟨m, rfl, mine, by simp [noteRan, deliver, mine]⟩⟩
    · exact ⟨rfl, Or.inl (by simp [noteRan, deliver, mine])⟩
  | halfClose =>
    unfold shutdownInLoop
    split <;> exact ⟨rfl, Or.inl rfl⟩
  | _ => exact ⟨rfl, Or.inl rfl⟩

theorem fifo_exec (lawful : Lawful s) (order : InOrder s) (inv : Fifo s)
    (top : s.stack = frame :: rest) (did : Did { s with stack := rest } frame t) :
    Fifo t := by
  obtain ⟨pushed, executed, leaves⟩ := did_executed did
  obtain ⟨promised, returned⟩ := did_returned did
  obtain ⟨fs, waiting, foreign⟩ := executed.queued
  have called := (did_carried did).called
  have no_runs := (executed_accounts lawful.flow top executed (leaves_tame leaves)).2.2.2.2
  have old_message : ∀ {m}, .sendInLoop m ∈ fs → False := by
    intro m new
    rcases foreign _ new with (impossible | ⟨n, impossible⟩) | impossible <;> cases impossible
  constructor
  · intro m member
    rw [called]
    rcases returned with same | ⟨m', rfl, -, more⟩
    · exact inv.known m (same ▸ member)
    · rw [more, List.mem_append, List.mem_singleton] at member
      rcases member with old | rfl
      · exact inv.known m old
      · exact order.called_of_stack (by simp [onStack, top, Frame.messages, Functor.messages])
  · intro m member
    have old := inv.kept m (promised ▸ member)
    rcases returned with same | ⟨m', -, -, more⟩
    · rw [same]
      exact old
    · rw [more]
      exact List.mem_append_left _ old
  · intro n m busy
    rw [executed.threads] at busy
    rcases returned with same | ⟨m', -, loop, more⟩
    · rw [same]
      exact inv.entry n m busy
    · rw [more, List.mem_append, List.mem_singleton]
      rintro (old | rfl)
      · exact inv.entry n m busy old
      · have other := (order.called_of_entry busy).2
        rw [loop] at other
        cases other
  · intro young
    have before : Young s.conn := by
      unfold Young at young
      rcases did_state did with same | ⟨down, -⟩ | ⟨-, connecting⟩
      · rw [same] at young
        exact young
      · rw [down] at young
        rcases young with impossible | impossible <;> cases impossible
      · exact Or.inl connecting
    obtain ⟨not_queued, -, not_asked⟩ := inv.early before
    refine ⟨?_, no_runs _, ?_⟩
    · rw [waiting, List.mem_append]
      rintro (old | new)
      · exact not_queued old
      · rcases foreign _ new with (impossible | ⟨n, impossible⟩) | impossible <;> cases impossible
    · rw [executed.threads]
      exact not_asked
  · intro m member inside
    rw [waiting] at inside
    rcases fromShutdown_append inside with old | new
    · exact inv.behind m (promised ▸ member) old
    · exact old_message new
  · intro stack
    exact absurd (by rw [stack]; exact List.mem_cons_self) (no_runs .shutdownInLoop)

theorem asked_promised {caller : Caller} (asked : Asked s caller c t r) :
    t.hist.returned = s.hist.returned ∧
      ((t.hist.promised = s.hist.promised ∧ (Young t.conn → Young s.conn) ∧
          r ≠ some (.runInLoop .shutdownInLoop)) ∨
        (t.hist.promised = s.hist.returned ∧ Young s.conn ∧ ¬Young t.conn)) := by
  have settled : ∀ {c : Conn}, c.state_ = .kDisconnecting → ¬Young c := by
    intro c closing young
    unfold Young at young
    rw [closing] at young
    rcases young with impossible | impossible <;> cases impossible
  cases asked with
  | shutdown up => exact ⟨rfl, Or.inr ⟨rfl, Or.inr up, settled rfl⟩⟩
  | forceClose | forceCloseWithDelay =>
    exact ⟨rfl, Or.inl ⟨rfl, fun young => absurd young (settled rfl), nofun⟩⟩
  | send | startRead | stopRead | refused => exact ⟨rfl, Or.inl ⟨rfl, id, nofun⟩⟩

theorem fifo_asked {u : State} {caller : Caller} (inv : Fifo s) (order : InOrder s)
    (asked : Asked s caller c t r) (conn : u.conn = t.conn) (hist : u.hist = t.hist)
    (queue : u.queue = t.queue)
    (threads : ∀ n f, u.threads n = some f →
      s.threads n = some f ∨ r.map Request.functor = some f)
    (runs : .run .shutdownInLoop ∈ u.stack →
      .run .shutdownInLoop ∈ s.stack ∨ r = some (.runInLoop .shutdownInLoop))
    (alone : u.stack = [.run .shutdownInLoop] → s.stack = [.run .shutdownInLoop]) : Fifo u := by
  have entered := asked_entered asked
  obtain ⟨returned, promised⟩ := asked_promised asked
  have waiting : u.queue.waiting = s.queue.waiting := by rw [queue, entered.queue]
  constructor
  · intro m member
    rw [hist, returned] at member
    rw [hist, entered.called]
    exact List.mem_append_left _ (inv.known m member)
  · intro m member
    rw [hist] at member ⊢
    rw [returned]
    rcases promised with ⟨same, -⟩ | ⟨now, -⟩
    · exact inv.kept m (same ▸ member)
    · exact now ▸ member
  · intro n m busy
    rw [hist, returned]
    rcases threads n _ busy with old | new
    · exact inv.entry n m old
    · intro member
      have fresh : m ∈ requested r := by simp [requested, new, Functor.messages]
      have below := order.ids m (inv.known m member)
      have id := (entered.made m fresh).2.1
      omega
  · intro young
    rw [conn] at young
    rcases promised with ⟨-, before, other⟩ | ⟨-, -, settled⟩
    · obtain ⟨not_queued, not_running, not_asked⟩ := inv.early (before young)
      refine ⟨by rw [waiting]; exact not_queued, ?_, ?_⟩
      · intro member
        exact (runs member).elim not_running other
      · intro n busy
        rcases threads n _ busy with old | new
        · exact not_asked n old
        · obtain ⟨q, rfl, functor⟩ := Option.map_eq_some_iff.mp new
          cases q with
          | runInLoop f => exact other (by rw [show f = .shutdownInLoop from functor])
          | queueForceClose => cases functor
    · exact absurd young settled
  · intro m member
    rw [hist] at member
    rw [waiting]
    rcases promised with ⟨same, -⟩ | ⟨-, young, -⟩
    · exact inv.behind m (same ▸ member)
    · rw [fromShutdown_nil (inv.early young).1]
      exact List.not_mem_nil
  · intro single m member
    rw [hist] at member
    rw [waiting]
    rcases promised with ⟨same, -⟩ | ⟨-, young, -⟩
    · exact inv.now (alone single) m (same ▸ member)
    · exact absurd (by rw [alone single]; exact List.mem_cons_self) (inv.early young).2.1

theorem fifo_frame (inv : Fifo s) (hist : t.hist = s.hist)
    (state : t.conn.state_ = s.conn.state_) (queue : t.queue.waiting = s.queue.waiting)
    (threads : t.threads = s.threads)
    (runs : .run .shutdownInLoop ∈ t.stack → .run .shutdownInLoop ∈ s.stack)
    (alone : t.stack = [.run .shutdownInLoop] → s.stack = [.run .shutdownInLoop]) : Fifo t := by
  constructor
  · rw [hist]
    exact inv.known
  · rw [hist]
    exact inv.kept
  · rw [hist, threads]
    exact inv.entry
  · intro young
    unfold Young at young
    rw [state] at young
    obtain ⟨not_queued, not_running, not_asked⟩ := inv.early young
    rw [queue, threads]
    exact ⟨not_queued, fun member => not_running (runs member), not_asked⟩
  · rw [hist, queue]
    exact inv.behind
  · intro single
    rw [hist, queue]
    exact inv.now (alone single)

theorem fifo_pushFunctor (inv : Fifo s) (silent : f.messages = []) (other : f ≠ .shutdownInLoop) :
    Fifo (pushFunctor s f) := by
  have waiting : (pushFunctor s f).queue.waiting = s.queue.waiting ++ [f] := Batch.waiting_push _ _
  have old : ∀ m, .sendInLoop m ≠ f := by
    rintro m rfl
    cases silent
  refine ⟨inv.known, inv.kept, inv.entry, ?_, ?_, ?_⟩
  · intro young
    obtain ⟨not_queued, not_running, not_asked⟩ := inv.early young
    refine ⟨?_, not_running, not_asked⟩
    rw [waiting]
    simpa [not_queued] using Ne.symm other
  · intro m member inside
    rw [waiting] at inside
    rcases fromShutdown_append inside with before | new
    · exact inv.behind m member before
    · exact old m (List.mem_singleton.mp new)
  · intro single m member
    rw [waiting]
    simpa [old m] using inv.now single m member

theorem fifo_threadPush {n : Nat} (inv : Fifo s) (order : InOrder s) (busy : s.threads n = some f) :
    Fifo (threadPush s n f) := by
  have waiting : (threadPush s n f).queue.waiting = s.queue.waiting ++ [f] := by
    cases f <;> exact Batch.waiting_push _ _
  have threads : (threadPush s n f).threads = Function.update s.threads n none := by
    cases f <;> rfl
  have promised : (threadPush s n f).hist.promised = s.hist.promised := by cases f <;> rfl
  have called : (threadPush s n f).hist.called = s.hist.called := by cases f <;> rfl
  have returned : (threadPush s n f).hist.returned = s.hist.returned ++ f.messages := by
    cases f <;> simp [threadPush, pushFunctor, Functor.messages]
  have stack : (threadPush s n f).stack = s.stack := by cases f <;> rfl
  have unpromised : ∀ m ∈ s.hist.promised, .sendInLoop m ≠ f := by
    rintro m member rfl
    exact inv.entry n m busy (inv.kept m member)
  have slots : ∀ k g, Function.update s.threads n none k = some g → k ≠ n ∧ s.threads k = some g := by
    intro k g there
    by_cases same : k = n
    · subst same
      simp at there
    · exact ⟨same, by simpa [Function.update_of_ne same] using there⟩
  constructor
  · intro m member
    rw [called]
    rw [returned, List.mem_append] at member
    rcases member with old | new
    · exact inv.known m old
    · cases f with
      | sendInLoop m' =>
        rw [List.mem_singleton.mp new]
        exact (order.called_of_entry busy).1
      | _ => cases new
  · intro m member
    rw [returned]
    exact List.mem_append_left _ (inv.kept m (promised ▸ member))
  · intro k m there
    rw [threads] at there
    obtain ⟨other, there⟩ := slots k _ there
    rw [returned, List.mem_append]
    rintro (old | new)
    · exact inv.entry k m there old
    · cases f with
      | sendInLoop m' =>
        obtain rfl := List.mem_singleton.mp new
        have mine := (order.called_of_entry busy).2
        rw [(order.called_of_entry there).2] at mine
        exact other (by injection mine)
      | _ => cases new
  · intro young
    rw [threadPush_conn] at young
    obtain ⟨not_queued, not_running, not_asked⟩ := inv.early young
    refine ⟨?_, by rw [stack]; exact not_running, ?_⟩
    · rw [waiting, List.mem_append, List.mem_singleton]
      rintro (old | rfl)
      · exact not_queued old
      · exact not_asked n busy
    · rw [threads]
      intro k there
      exact not_asked k (slots k _ there).2
  · intro m member inside
    rw [promised] at member
    rw [waiting] at inside
    rcases fromShutdown_append inside with before | new
    · exact inv.behind m member before
    · exact unpromised m member (List.mem_singleton.mp new)
  · intro single m member
    rw [stack] at single
    rw [promised] at member
    rw [waiting, List.mem_append, List.mem_singleton]
    rintro (old | new)
    · exact inv.now single m member old
    · exact unpromised m member new

theorem fifo_nextFunctor {q : Batch Functor} (inv : Fifo s) (next : s.queue.next = some (f, q))
    (empty : s.stack = []) :
    Fifo (enter { s with queue := q } [.run f]) := by
  have waiting : s.queue.waiting = f :: q.waiting := Batch.waiting_next next
  refine ⟨inv.known, inv.kept, inv.entry, ?_, ?_, ?_⟩
  · intro young
    obtain ⟨not_queued, -, not_asked⟩ := inv.early young
    rw [waiting, List.mem_cons, not_or] at not_queued
    refine ⟨not_queued.2, ?_, not_asked⟩
    simpa [enter, empty] using not_queued.1
  · intro m member inside
    have before := inv.behind m member
    rw [waiting] at before
    by_cases same : f = .shutdownInLoop
    · subst same
      exact before (List.mem_cons_of_mem _ (mem_of_fromShutdown inside))
    · refine before ?_
      unfold fromShutdown
      rw [List.dropWhile_cons_of_pos (by simpa using same)]
      exact inside
  · intro single m member inside
    have same : f = .shutdownInLoop := by simpa [enter, empty] using single
    subst same
    have before := inv.behind m member
    rw [waiting] at before
    exact before (List.mem_cons_of_mem _ inside)

theorem fifo_ownerRan (ran : OwnerRan s f t) (inv : Fifo s) (silent : f.messages = [])
    (other : f ≠ .shutdownInLoop) : Fifo t := by
  cases ran with
  | here _ top =>
    refine fifo_frame inv rfl rfl rfl rfl ?_ ?_
    · intro member
      simpa [enter, Ne.symm other] using member
    · intro single
      simp [enter, top] at single
  | away => exact fifo_pushFunctor inv silent other

theorem fifo_loopCall (inv : Fifo s) (order : InOrder s) (top : s.stack = .userCode :: rest)
    (asked : Asked s .loop c t r) :
    Fifo { t with stack := (r.map Request.frame).toList ++ t.stack } := by
  have entered := asked_entered asked
  refine fifo_asked inv order asked rfl rfl rfl ?_ ?_ ?_
  · intro n f busy
    exact Or.inl (by rw [← entered.threads]; exact busy)
  · intro member
    rw [entered.stack] at member
    rcases List.mem_append.mp member with new | old
    · refine Or.inr ?_
      obtain ⟨q, rfl, frame⟩ := Option.map_eq_some_iff.mp (Option.mem_toList.mp new)
      cases q with
      | runInLoop f =>
        injection frame with same
        rw [same]
      | queueForceClose => cases frame
    · exact Or.inl old
  · intro single
    have single : (r.map Request.frame).toList ++ s.stack = [.run .shutdownInLoop] := by
      rw [← entered.stack]
      exact single
    rw [top] at single
    cases r <;> simp at single

theorem fifo_step (lawful : Lawful s) (order : InOrder s) (inv : Fifo s)
    (taken : step s l = some t) : Fifo t := by
  obtain ⟨-, stepped⟩ := stepped lawful.sound taken
  cases stepped with
  | @threadCall n c t r idle asked =>
    have entered := asked_entered asked
    refine fifo_asked inv order asked rfl rfl rfl ?_ ?_ ?_
    · intro k f busy
      by_cases same : k = n
      · subst same
        exact Or.inr (by simpa using busy)
      · exact Or.inl (by simpa [Function.update_of_ne same] using busy)
    · intro member
      exact Or.inl (by rw [← entered.stack]; exact member)
    · intro single
      rw [← entered.stack]
      exact single
  | threadPush busy => exact fifo_threadPush inv order busy
  | queueTask => exact fifo_pushFunctor inv rfl nofun
  | introduce _ ran => exact fifo_ownerRan ran (fifo_frame inv rfl rfl rfl rfl id id) rfl nofun
  | ownerRemoves =>
    have kept : Fifo { s with owned := false } := fifo_frame inv rfl rfl rfl rfl id id
    exact fifo_pushFunctor kept rfl nofun
  | ownerTearsDown _ _ ran =>
    exact fifo_ownerRan ran (fifo_frame inv rfl rfl rfl rfl id id) rfl nofun
  | pollNone | pollSome => exact fifo_frame inv rfl rfl rfl rfl id id
  | otherCode _ empty | dispatch _ empty =>
    refine fifo_frame inv rfl rfl rfl rfl ?_ ?_ <;> simp [enter, empty]
  | fireTimer _ empty _ asked =>
    have kept : Fifo { s with timers := s.timers - 1, current := false } :=
      fifo_frame inv rfl rfl rfl rfl id id
    have same : InOrder { s with timers := s.timers - 1, current := false } :=
      inOrder_moved order rfl rfl rfl rfl order.below order.foreign order.batch
    refine fifo_asked kept same asked rfl rfl rfl ?_ ?_ ?_
    · intro n f busy
      exact Or.inl (by rw [← (asked_entered asked).threads]; exact busy)
    · cases asked <;> simp [empty, Request.frame]
    · cases asked <;> simp [empty, Request.frame]
  | endHandling handling _ _ =>
    have idle := order.batch (by rw [handling]; decide)
    exact fifo_frame inv rfl rfl (Batch.waiting_swap idle) rfl id id
  | nextFunctor _ empty next => exact fifo_nextFunctor inv next empty
  | endFunctors => exact fifo_frame inv rfl rfl rfl rfl id id
  | call top asked => exact fifo_loopCall inv order top asked
  | @ret rest top =>
    refine fifo_frame inv rfl rfl rfl rfl ?_ ?_
    · intro member
      rw [top]
      exact List.mem_cons_of_mem _ member
    · intro single
      have single : rest = [.run .shutdownInLoop] := single
      have resting := lawful.flow.tail (.run .shutdownInLoop) (by rw [top, single]; simp)
      cases resting
  | exec top did => exact fifo_exec lawful order inv top did
  | failed => exact fifo_frame inv rfl rfl rfl rfl id id

/-- All bytes of the promised messages were in the socket. -/
def HalfClose.Delivered (h : HalfClose) : Prop :=
  ∀ m ∈ h.promised, m.bytes = [] ∨
    ∃ before after, h.ran = before ++ m :: after ∧
      ((before ++ [m]).map Message.bytes).flatten <+: h.accepted

/-- The next frame half-closes without having waited in the queue: shutdown() was
    called by the loop thread, or handleWrite drained the buffer in kDisconnecting. -/
def DirectHalfClose (s : State) : Prop :=
  (s.stack.head? = some (.run .shutdownInLoop) ∧ s.stack.tail ≠ []) ∨
    (s.stack.head? = some .drainedTest ∧ s.conn.state_ = .kDisconnecting)

instance (s : State) : Decidable (DirectHalfClose s) := inferInstanceAs (Decidable (_ ∨ _))

/-- A direct half-close finds none of the promised bytes in the queue. -/
def Unhurried (s : State) (l : Label) : Prop :=
  l.isExec = true → s.conn.channel_.isWriting = false → DirectHalfClose s →
    ∀ m ∈ s.hist.promised, m.bytes ≠ [] → m ∉ inQueue s

instance (s : State) (l : Label) : Decidable (Unhurried s l) :=
  inferInstanceAs (Decidable (_ → _ → _ → ∀ m ∈ s.hist.promised, _))

def HalfCloses (s : State) (frame : Frame) : Prop :=
  frame = .run .shutdownInLoop ∨ (frame = .drainedTest ∧ s.conn.state_ = .kDisconnecting)

theorem did_halfCloses (did : Did s frame t) :
    (t.hist.halfCloses = s.hist.halfCloses ∧
        (s.conn.channel_.isWriting = false → ¬HalfCloses s frame)) ∨
      (t.hist.halfCloses = s.hist.halfCloses ++ [⟨s.hist.promised, s.hist.ran, s.hist.accepted⟩] ∧
        s.conn.channel_.isWriting = false ∧ HalfCloses s frame) := by
  have other : ∀ {f : Frame}, f ≠ .run .shutdownInLoop → f ≠ .drainedTest →
      s.conn.channel_.isWriting = false → ¬HalfCloses s f := by
    rintro f not_run not_test - (same | ⟨same, -⟩)
    · exact not_run same
    · exact not_test same
  cases did with
  | nothing idle kept =>
    refine Or.inl ⟨rfl, ?_⟩
    rintro - (rfl | ⟨rfl, closing⟩)
    · cases idle
    · exact kept rfl closing
  | user calls =>
    refine Or.inl ⟨rfl, ?_⟩
    rintro - (rfl | ⟨rfl, -⟩) <;> cases calls
  | halfClose tested =>
    unfold shutdownInLoop
    split
    · exact Or.inr ⟨rfl, ‹_›, tested⟩
    · exact Or.inl ⟨rfl, fun idle => absurd idle ‹_›⟩
  | close origin =>
    refine Or.inl ⟨rfl, other ?_ ?_⟩ <;>
      rcases origin with (⟨rfl, -⟩ | ⟨rfl, -⟩) | rfl <;> nofun
  | send | startRead | stopRead | addTimer | establish | destroy | destroyRest | queueForceClose
  | write | eventDone | callback | closeCallback | remove =>
    exact Or.inl ⟨rfl, other nofun nofun⟩

theorem InOrder.not_queued (order : InOrder s) (ran : m ∈ s.hist.ran) :
    m ∉ inQueue s := by
  intro queued
  have distinct : (ofCaller m.caller s.hist.called).Nodup := order.distinct.filter _
  rw [order.order m.caller] at distinct
  simp only [List.append_assoc, ofCaller_append] at distinct
  refine List.disjoint_of_nodup_append distinct (a := m) ?_ ?_
  · simpa [ofCaller] using ran
  · simp [ofCaller, queued]

structure Tracked (s : State) : Prop where
  lawful : Lawful s
  whole : Whole s.conn s.hist
  order : InOrder s
  fifo : Fifo s

theorem tracked_init (setup : Setup) : Tracked (init setup) :=
  ⟨lawful_init setup, whole_init setup, inOrder_init setup, fifo_init setup⟩

theorem tracked_step (inv : Tracked s) (taken : step s l = some t) : Tracked t :=
  ⟨lawful_step inv.lawful taken, whole_step inv.lawful.sound inv.whole taken,
    inOrder_step inv.lawful.sound inv.order taken,
    fifo_step inv.lawful inv.order inv.fifo taken⟩

theorem Tracked.promised_somewhere (inv : Tracked s) (member : m ∈ s.hist.promised) :
    m ∈ s.hist.ran ∨ m ∈ onStack s ∨ m ∈ inQueue s := by
  have returned := inv.fifo.kept m member
  have called : m ∈ ofCaller m.caller s.hist.called := by
    simpa [ofCaller] using inv.fifo.known m returned
  rw [inv.order.order m.caller] at called
  have not_entering : m ∉ atEntry s m.caller := by
    intro entering
    cases caller : m.caller with
    | loop => rw [caller] at entering; cases entering
    | other n =>
      rw [caller] at entering
      simp only [atEntry, List.mem_flatMap, Option.mem_toList] at entering
      obtain ⟨f, busy, inside⟩ := entering
      cases f with
      | sendInLoop m' =>
        rw [← List.mem_singleton.mp inside] at busy
        exact inv.fifo.entry n m busy returned
      | _ => cases inside
  simp only [ofCaller, List.mem_filter, List.mem_append] at called
  rcases called.1 with ((ran | stacked) | queued) | entering
  · exact Or.inl ran
  · exact Or.inr (Or.inl stacked)
  · exact Or.inr (Or.inr queued)
  · exact absurd entering not_entering

theorem delivered_iff (inv : Tracked s) (open_ : s.conn.state_ ≠ .kDisconnected)
    (unbroken : s.hist.broken = false) (idle : s.conn.channel_.isWriting = false)
    (clear : onStack s = []) :
    HalfClose.Delivered ⟨s.hist.promised, s.hist.ran, s.hist.accepted⟩ ↔
      ∀ m ∈ s.hist.promised, m.bytes ≠ [] → m ∉ inQueue s := by
  obtain ⟨coupled, stream⟩ := inv.whole open_ unbroken
  have drained : s.conn.outputBuffer_.readable = [] := by
    by_contra some
    have writing := coupled.mpr some
    rw [idle] at writing
    cases writing
  rw [drained, List.append_nil] at stream
  constructor
  · intro delivered m member nonempty
    rcases delivered m member with empty | ⟨before, after, ran, -⟩
    · exact absurd empty nonempty
    · refine inv.order.not_queued ?_
      have ran : s.hist.ran = before ++ m :: after := ran
      rw [ran]
      simp
  · intro unqueued m member
    by_cases nonempty : m.bytes = []
    · exact Or.inl nonempty
    · have ran : m ∈ s.hist.ran := by
        rcases inv.promised_somewhere member with ran | stacked | queued
        · exact ran
        · rw [clear] at stacked
          cases stacked
        · exact absurd queued (unqueued m member nonempty)
      obtain ⟨before, after, split⟩ := List.append_of_mem ran
      refine Or.inr ⟨before, after, split, ?_⟩
      have all : s.hist.accepted = ((before ++ [m]).map Message.bytes).flatten ++
          (after.map Message.bytes).flatten := by
        rw [stream, split]
        simp
      rw [all]
      exact List.prefix_append _ _

def Spent (s : State) : Prop := s.conn.state_ = .kDisconnected ∨ s.hist.broken = true

theorem did_broken (did : Did s frame t) (broken : s.hist.broken = true) :
    t.hist.broken = true := by
  cases did with
  | halfClose =>
    unfold shutdownInLoop
    split <;> exact broken
  | send | write | close | startRead | stopRead | establish | destroy =>
    exact Bool.or_eq_true_iff.mpr (Or.inl broken)
  | nothing | user | addTimer | destroyRest | queueForceClose | eventDone | callback
  | closeCallback | remove => exact broken

theorem broken_step (sound : s.conn.Sound) (broken : s.hist.broken = true)
    (taken : step s l = some t) : t.hist.broken = true := by
  obtain ⟨-, stepped⟩ := stepped sound taken
  cases stepped with
  | threadCall _ asked => cases asked <;> exact broken
  | @threadPush n f _ =>
    obtain ⟨returned, pushed⟩ := threadPush_eq s n f
    rw [pushed]
    exact broken
  | introduce _ ran =>
    rw [ownerRan_hist ran]
    exact broken
  | ownerTearsDown _ _ ran =>
    rw [ownerRan_hist ran]
    exact broken
  | fireTimer _ _ _ asked => cases asked <;> exact broken
  | call _ asked => cases asked <;> exact broken
  | exec _ did => exact did_broken did broken
  | queueTask | ownerRemoves | pollNone | pollSome | otherCode | dispatch | endHandling
  | nextFunctor | endFunctors | ret | failed => exact broken

theorem down_step (sound : s.conn.Sound) (down : s.conn.state_ = .kDisconnected)
    (taken : step s l = some t) : t.conn.state_ = .kDisconnected := by
  have forward := rank_step sound taken
  rw [down] at forward
  cases state : t.conn.state_ with
  | kDisconnected => rfl
  | _ =>
    rw [state] at forward
    exact absurd forward (by decide)

theorem spent_step (sound : s.conn.Sound) (spent : Spent s) (taken : step s l = some t) :
    Spent t := by
  rcases spent with down | broken
  · exact Or.inl (down_step sound down taken)
  · exact Or.inr (broken_step sound broken taken)

theorem spent_run {ls : List Label} (inv : Tracked s) (spent : Spent s)
    (ran : machine.run s ls = some t) : Spent t := by
  have kept : ∀ s l t, s.conn.Sound ∧ Spent s → step s l = some t → t.conn.Sound ∧ Spent t := by
    rintro s l t ⟨sound, spent⟩ taken
    exact ⟨sound_step sound taken, spent_step sound spent taken⟩
  exact (machine.run_invariant kept ⟨inv.lawful.sound, spent⟩ ran).2

theorem stepped_halfCloses (stepped : Stepped s l t) (other : l.isExec = false) :
    t.hist.halfCloses = s.hist.halfCloses := by
  cases stepped with
  | threadCall _ asked => cases asked <;> rfl
  | @threadPush n f _ =>
    obtain ⟨returned, pushed⟩ := threadPush_eq s n f
    rw [pushed]
  | introduce _ ran => rw [ownerRan_hist ran]
  | ownerTearsDown _ _ ran => rw [ownerRan_hist ran]
  | fireTimer _ _ _ asked => cases asked <;> rfl
  | call _ asked => cases asked <;> rfl
  | exec | failed => cases other
  | queueTask | ownerRemoves | pollNone | pollSome | otherCode | dispatch | endHandling
  | nextFunctor | endFunctors | ret => rfl

theorem direct_of_halfCloses (top : s.stack = frame :: rest) :
    HalfCloses s frame ↔ DirectHalfClose s ∨ s.stack = [.run .shutdownInLoop] := by
  unfold HalfCloses DirectHalfClose
  rw [top]
  simp only [List.head?_cons, Option.some.injEq, List.tail_cons, List.cons.injEq]
  by_cases last : rest = [] <;> simp only [last] <;> tauto

theorem exec_delivers_iff {w : WriteResult} {r : ReadResult} (inv : Tracked s)
    (open_ : s.conn.state_ ≠ .kDisconnected) (unbroken : s.hist.broken = false)
    (top : s.stack = frame :: rest) (did : Did { s with stack := rest } frame t) :
    (∀ h ∈ t.hist.halfCloses, h.Delivered) ↔
      (∀ h ∈ s.hist.halfCloses, h.Delivered) ∧ Unhurried s (.exec w r) := by
  have cases_of_top := direct_of_halfCloses top
  rcases did_halfCloses did with ⟨same, not_closing⟩ | ⟨more, idle, closing⟩
  · have unhurried : Unhurried s (.exec w r) := by
      intro _ idle direct
      exact absurd (cases_of_top.mpr (Or.inl direct)) (not_closing idle)
    rw [same]
    exact ⟨fun all => ⟨all, unhurried⟩, And.left⟩
  · have below : rest.flatMap Frame.messages = [] := by
      have below := inv.order.below
      rwa [top] at below
    have silent : frame.messages = [] := by
      rcases closing with rfl | ⟨rfl, -⟩ <;> rfl
    have clear : onStack s = [] := by simp [onStack, top, silent, below]
    have record := delivered_iff inv open_ unbroken idle clear
    have this_one : HalfClose.Delivered ⟨s.hist.promised, s.hist.ran, s.hist.accepted⟩ ↔
        Unhurried s (.exec w r) := by
      rw [record]
      constructor
      · intro unqueued _ _ _
        exact unqueued
      · intro unhurried
        rcases cases_of_top.mp closing with direct | alone
        · exact unhurried rfl idle direct
        · intro m member _ queued
          simp only [inQueue, List.mem_flatMap] at queued
          obtain ⟨f, waiting, inside⟩ := queued
          cases f with
          | sendInLoop m' =>
            rw [← List.mem_singleton.mp inside] at waiting
            exact inv.fifo.now alone m member waiting
          | _ => cases inside
    rw [more, List.forall_mem_append, List.forall_mem_singleton]
    exact and_congr_right fun _ => this_one

theorem failed_unhurried {w : WriteResult} {r : ReadResult} {e : String}
    (top : s.stack = frame :: rest) (why : Failed { s with stack := rest } frame e) :
    Unhurried s (.exec w r) := by
  intro _ _ direct
  rcases (direct_of_halfCloses top).mpr (Or.inl direct) with rfl | ⟨rfl, -⟩ <;>
    cases why with
    | close origin => rcases origin with ⟨impossible, -⟩ | ⟨impossible, -⟩ <;> cases impossible

theorem delivers_step (inv : Tracked s) (taken : step s l = some t) (fresh : ¬Spent s) :
    (∀ h ∈ t.hist.halfCloses, h.Delivered) ↔
      (∀ h ∈ s.hist.halfCloses, h.Delivered) ∧ Unhurried s l := by
  obtain ⟨open_, unbroken⟩ := not_or.mp fresh
  obtain ⟨-, stepped⟩ := stepped inv.lawful.sound taken
  by_cases executes : l.isExec = true
  · cases stepped with
    | exec top did => exact exec_delivers_iff inv open_ (by simpa using unbroken) top did
    | failed top why => exact ⟨fun all => ⟨all, failed_unhurried top why⟩, And.left⟩
    | _ => cases executes
  · rw [stepped_halfCloses stepped (by simpa using executes)]
    exact ⟨fun all => ⟨all, fun exec => absurd exec executes⟩, And.left⟩

theorem delivers_run {ls : List Label} (inv : Tracked s) (ran : machine.run s ls = some t)
    (fresh : ¬Spent t) :
    (∀ h ∈ t.hist.halfCloses, h.Delivered) ↔
      (∀ h ∈ s.hist.halfCloses, h.Delivered) ∧ machine.Within Unhurried s ls := by
  induction ls generalizing s with
  | nil =>
    simp only [Machine.run, Option.some.injEq] at ran
    rw [ran]
    exact ⟨fun all => ⟨all, trivial⟩, And.left⟩
  | cons l ls ih =>
    obtain ⟨u, first, rest⟩ := machine.run_cons_eq_some.mp ran
    have young : ¬Spent s := fun spent => fresh (spent_run inv spent ran)
    rw [ih (tracked_step inv first) rest, delivers_step inv first young, and_assoc]
    refine and_congr_right fun _ => and_congr_right fun _ => ?_
    constructor
    · intro within v taken
      have same : u = v := Option.some.inj (first.symm.trans taken)
      exact same ▸ within
    · intro within
      exact within u first

/-- In a run without a close or a failed write, what was promised is in the socket at
    every shutdownWrite() exactly when no direct half-close overtakes it in the queue. -/
theorem shutdown_loses_nothing_iff (setup : Setup) {ls : List Label}
    (ran : machine.run (init setup) ls = some s) (open_ : s.conn.state_ ≠ .kDisconnected)
    (unbroken : s.hist.broken = false) :
    (∀ h ∈ s.hist.halfCloses, h.Delivered) ↔ machine.Within Unhurried (init setup) ls := by
  have fresh : ¬Spent s := not_or.mpr ⟨open_, by simp [unbroken]⟩
  rw [delivers_run (tracked_init setup) ran fresh]
  exact and_iff_right (by nofun)

def gracefulRun : List Label :=
  [.introduce, .poll none, .endHandling, .nextFunctor, .exec (.written 0) .data,
    .exec (.written 0) .data, .call (.send [1, 2]), .exec (.written 1) .data, .ret, .endFunctors,
    .threadCall 7 .shutdown, .threadPush 7, .poll (some { pollout := true }), .dispatch,
    .exec (.written 0) .data, .exec (.written 0) .data, .exec (.written 0) .data,
    .exec (.written 1) .data, .exec (.written 0) .data, .exec (.written 0) .data]

theorem shutdown_loses_nothing_gracefully :
    ∃ s, machine.run (init { home := false }) gracefulRun = some s ∧
      s.hist.halfCloses.length = 1 ∧ s.hist.promised.length = 1 ∧ s.hist.accepted = [1, 2] ∧
      ∀ h ∈ s.hist.halfCloses, h.Delivered := by
  have outcome : (machine.run (init { home := false }) gracefulRun).map (fun s =>
      (s.conn.state_, s.hist.broken, s.hist.halfCloses.length, s.hist.promised.length,
        s.hist.accepted)) = some (.kDisconnecting, false, 1, 1, [1, 2]) := by decide +kernel
  have within : machine.checkWithin Unhurried (init { home := false }) gracefulRun = true := by
    decide +kernel
  obtain ⟨s, reached, facts⟩ := Option.map_eq_some_iff.mp outcome
  simp only [Prod.mk.injEq] at facts
  obtain ⟨closing, unbroken, once, promised, accepted⟩ := facts
  have exact_condition := shutdown_loses_nothing_iff { home := false } reached
    (by rw [closing]; decide) unbroken
  exact ⟨s, reached, once, promised, accepted,
    exact_condition.mpr (machine.within_of_check within)⟩

/-- Thread 7's send() has returned with its functor queued; the loop thread then calls
    shutdown(), which half-closes at once. -/
def overtakenRun : List Label :=
  [.introduce, .poll none, .endHandling, .nextFunctor, .exec (.written 0) .data,
    .exec (.written 0) .data, .threadCall 7 (.send [3]), .threadPush 7, .call .shutdown,
    .exec (.written 0) .data]

theorem shutdown_overtakes_queued_send :
    ∃ s, machine.run (init { home := false }) overtakenRun = some s ∧
      s.conn.state_ ≠ .kDisconnected ∧ s.hist.broken = false ∧
      ∃ h ∈ s.hist.halfCloses, ¬h.Delivered := by
  have outcome : (machine.run (init { home := false }) overtakenRun).map (fun s =>
      (s.conn.state_, s.hist.broken, s.hist.halfCloses)) =
      some (.kDisconnecting, false, [⟨[⟨.other 7, 0, [3]⟩], [], []⟩]) := by decide +kernel
  obtain ⟨s, reached, facts⟩ := Option.map_eq_some_iff.mp outcome
  simp only [Prod.mk.injEq] at facts
  obtain ⟨closing, unbroken, records⟩ := facts
  refine ⟨s, reached, by rw [closing]; decide, unbroken,
    ⟨[⟨.other 7, 0, [3]⟩], [], []⟩, by rw [records]; exact List.mem_singleton_self _, ?_⟩
  intro delivered
  rcases delivered ⟨.other 7, 0, [3]⟩ (by simp) with empty | ⟨before, after, ran, -⟩
  · cases empty
  · simp at ran

end TcpConnection
end Muduo
