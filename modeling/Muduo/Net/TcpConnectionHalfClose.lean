import Muduo.Net.TcpConnectionClosed
import Muduo.Net.TcpConnectionPending

/-!
shutdownWrite() of a connection. shutdownInLoop calls it, for shutdown() and for a
handleWrite that has drained outputBuffer_ in kDisconnecting, and takes the write
interest for pending output. The half-close of handleWrite never goes wrong. That
of shutdown() does when something came before it while it was under way: a
handleWrite that has drained the buffer and half-closed, or a handleClose that
dropped the write interest with output left.
-/
namespace Muduo
open Lib
namespace TcpConnection
variable {s t : State} {l : Label} {rest : List Frame} {r : ReadResult} {w : WriteResult}

def Label.failsWrite : Label → Bool
  | .exec w _ => w = .failed .EPIPE
  | _ => true

/-- After shutdownWrite(), write(2) fails with EPIPE. A frame that does not write takes
    no notice of the result. -/
def RefusesWrites (s : State) (l : Label) : Prop :=
  s.hist.halfCloses ≠ [] → l.failsWrite = true

instance (s : State) (l : Label) : Decidable (RefusesWrites s l) :=
  inferInstanceAs (Decidable (_ → _))

/-- The state from the first shutdownWrite() on. The buffer is empty in the state right
    after the call, so it was when the call was made. -/
structure HalfClosedOnce (s : State) : Prop where
  once : s.hist.halfCloses.length ≤ 1
  drained : s.hist.halfCloses ≠ [] → s.conn.outputBuffer_.readable = []
  last : ∀ h ∈ s.hist.halfCloses, h.accepted = s.hist.accepted

theorem halfClosedOnce_of_none (none : s.hist.halfCloses = []) : HalfClosedOnce s := by
  constructor <;> simp [none]

/-- shutdownInLoop of a shutdown() finds the write interest off: handleWrite has not
    half-closed before it, and if the connection is closed by now it left no output. -/
def InTime (s : State) (l : Label) : Prop :=
  l.isExec = true → s.stack.head? = some (.run .shutdownInLoop) →
    s.conn.channel_.isWriting = false →
    s.hist.halfCloses = [] ∧
      (s.conn.state_ = .kDisconnected → s.conn.outputBuffer_.readable = [])

instance (s : State) (l : Label) : Decidable (InTime s l) :=
  inferInstanceAs (Decidable (_ → _ → _ → _ ∧ (_ → _)))

structure Draining (s : State) : Prop where
  lawful : Lawful s
  coupled : s.conn.state_ ≠ .kDisconnected → s.conn.Coupled
  ended : s.hist.halfCloses ≠ [] → s.conn.channel_.isWriting = false
  tested : .drainedTest ∈ s.stack → s.hist.halfCloses = [] ∧
    s.conn.outputBuffer_.readable = [] ∧ s.conn.channel_.isWriting = false

theorem draining_init (setup : Setup) : Draining (init setup) := by
  refine ⟨lawful_init setup, ?_, ?_, ?_⟩
  · intro _
    exact (whole_init setup (by simp [init, Conn.new]) rfl).1
  · intro some
    exact absurd rfl some
  · intro testing
    cases testing

theorem Draining.untested_below {frame : Frame} (inv : Draining s) (top : s.stack = frame :: rest) :
    .drainedTest ∉ rest := by
  intro member
  cases inv.lawful.flow.below top _ member

structure Untouched (s t : State) : Prop where
  buffer : t.conn.outputBuffer_ = s.conn.outputBuffer_
  writing : t.conn.channel_.isWriting = s.conn.channel_.isWriting ∨
    (t.conn.state_ = .kDisconnected ∧ t.conn.channel_.isWriting = false)
  accepted : t.hist.accepted = s.hist.accepted
  halfCloses : t.hist.halfCloses = s.hist.halfCloses
  tested : .drainedTest ∈ t.stack → .drainedTest ∈ s.stack

theorem draining_untouched (inv : Draining s) (same : Untouched s t) (taken : step s l = some t) :
    Draining t := by
  have stays_off : s.conn.channel_.isWriting = false → t.conn.channel_.isWriting = false := by
    intro off
    rcases same.writing with kept | ⟨-, dropped⟩
    · rw [kept]
      exact off
    · exact dropped
  refine ⟨lawful_step inv.lawful taken, ?_, ?_, ?_⟩
  · intro up
    have open_ : s.conn.state_ ≠ .kDisconnected := fun down =>
      up (down_step inv.lawful.sound down taken)
    rcases same.writing with kept | ⟨down, -⟩
    · unfold Conn.Coupled
      rw [kept, same.buffer]
      exact inv.coupled open_
    · exact absurd down up
  · intro some
    rw [same.halfCloses] at some
    exact stays_off (inv.ended some)
  · intro testing
    obtain ⟨none, empty, off⟩ := inv.tested (same.tested testing)
    rw [same.halfCloses, same.buffer]
    exact ⟨none, empty, stays_off off⟩

theorem halfClosedOnce_untouched (clean : HalfClosedOnce s) (same : Untouched s t) :
    HalfClosedOnce t := by
  constructor
  · rw [same.halfCloses]
    exact clean.once
  · rw [same.halfCloses, same.buffer]
    exact clean.drained
  · rw [same.halfCloses, same.accepted]
    exact clean.last

theorem asked_untouched {caller : Caller} {c : Call} {r : Option Request}
    (asked : Asked s caller c t r) :
    t.conn.outputBuffer_ = s.conn.outputBuffer_ ∧ t.conn.channel_ = s.conn.channel_ ∧
      t.hist.accepted = s.hist.accepted ∧ t.hist.halfCloses = s.hist.halfCloses ∧
      t.stack = s.stack ∧ .drainedTest ∉ (r.map Request.frame).toList := by
  cases asked <;> simp [Request.frame]

theorem ownerRan_untouched {f : Functor} (ran : OwnerRan s f t) : Untouched s t := by
  cases ran with
  | here => exact ⟨rfl, Or.inl rfl, rfl, rfl, by simp [enter]⟩
  | away => exact ⟨rfl, Or.inl rfl, rfl, rfl, id⟩

theorem loopCall_untouched {c : Call} {r : Option Request} (asked : Asked s .loop c t r) :
    Untouched s { t with stack := (r.map Request.frame).toList ++ t.stack } := by
  obtain ⟨buffer, channel, accepted, halfCloses, stack, fresh⟩ := asked_untouched asked
  refine ⟨buffer, Or.inl (congrArg Channel.isWriting channel), accepted, halfCloses, ?_⟩
  intro testing
  rcases List.mem_append.mp testing with new | old
  · exact absurd new fresh
  · exact stack ▸ old

theorem stepped_untouched (stepped : Stepped s l t) (other : l.isExec = false) :
    Untouched s t := by
  cases stepped with
  | threadCall _ asked =>
    obtain ⟨buffer, channel, accepted, halfCloses, stack, -⟩ := asked_untouched asked
    exact ⟨buffer, Or.inl (congrArg Channel.isWriting channel), accepted, halfCloses,
      fun testing => stack ▸ testing⟩
  | @threadPush n f _ =>
    obtain ⟨returned, pushed⟩ := threadPush_eq s n f
    rw [pushed]
    exact ⟨rfl, Or.inl rfl, rfl, rfl, id⟩
  | introduce _ ran | ownerTearsDown _ _ ran =>
    have same := ownerRan_untouched ran
    exact ⟨same.buffer, same.writing, same.accepted, same.halfCloses, same.tested⟩
  | fireTimer _ _ _ asked =>
    have same := loopCall_untouched asked
    exact ⟨same.buffer, same.writing, same.accepted, same.halfCloses, same.tested⟩
  | call _ asked => exact loopCall_untouched asked
  | ret top =>
    refine ⟨rfl, Or.inl rfl, rfl, rfl, ?_⟩
    intro testing
    rw [top]
    exact List.mem_cons_of_mem _ testing
  | otherCode | dispatch | nextFunctor => exact ⟨rfl, Or.inl rfl, rfl, rfl, by simp [enter]⟩
  | exec | failed => cases other
  | queueTask | ownerRemoves | pollNone | pollSome | endHandling | endFunctors =>
    exact ⟨rfl, Or.inl rfl, rfl, rfl, id⟩

theorem exec_send {m : Message} (sound : s.conn.Sound)
    (top : s.stack = .run (.sendInLoop m) :: rest) (taken : step s (.exec w r) = some t) :
    ∃ out, s.conn.sendInLoop m.bytes w = .ok (t.conn, out) ∧
      t.hist.accepted = s.hist.accepted ++ out.accepted ∧
      t.hist.halfCloses = s.hist.halfCloses ∧ t.stack = rest := by
  have running := (stepped sound taken).1
  have possible : w.Possible m.bytes.length := by
    by_contra impossible
    simp [step, running, top, writeLength, impossible] at taken
  obtain ⟨c, out, sent, -⟩ := sendInLoop_spec sound m.bytes possible
  have code : Frame.run (.sendInLoop m) ≠ .userCode := by
    intro same
    cases same
  have did := exec_step (r := r) running top code possible
  rw [did] at taken
  simp only [execFrame, runFunctor, sent, ok_bind, pure_eq_ok, settle, Option.some.injEq] at taken
  subst taken
  exact ⟨out, sent, rfl, rfl, rfl⟩

theorem sendInLoop_coupled {c c' : Conn} {data : List UInt8} {out : Output} (sound : c.Sound)
    (up : c.state_ ≠ .kDisconnected) (coupled : c.Coupled)
    (sent : c.sendInLoop data w = .ok (c', out)) : c'.Coupled := by
  obtain ⟨n, fault, early, tried⟩ : ∃ n fault early, c.tryWrite data w = (n, fault, early) :=
    ⟨_, _, _, rfl⟩
  simp only [Conn.sendInLoop, if_neg up, tried, assertThat_of_true (Nat.sub_le _ _),
    ok_bind] at sent
  split at sent
  · rename_i more
    have rest : data.drop n ≠ [] := by
      rw [Ne, List.drop_eq_nil_iff]
      omega
    obtain ⟨c'', late, buffered, -, after, -⟩ := bufferRest_spec sound up rest
    rw [buffered] at sent
    cases sent
    exact after
  · cases sent
    exact coupled

theorem sendInLoop_refused {c c' : Conn} {data : List UInt8} {out : Output} (sound : c.Sound)
    (off : c.channel_.isWriting = false) (empty : c.outputBuffer_.readable = [])
    (sent : c.sendInLoop data (.failed .EPIPE) = .ok (c', out)) :
    c' = c ∧ out.accepted = [] := by
  have none := (Conn.readable_eq_nil_iff sound.valid).mp empty
  unfold Conn.sendInLoop at sent
  split at sent
  · cases sent
    exact ⟨rfl, rfl⟩
  · have tried : c.tryWrite data (.failed .EPIPE) = (0, true, { broken := true }) := by
      simp [Conn.tryWrite, off, none, Errno.fatal]
    simp only [tried, assertThat_of_true (Nat.sub_le _ _), ok_bind] at sent
    cases sent
    exact ⟨rfl, rfl⟩

theorem kept_send {m : Message} (inv : Draining s) (clean : HalfClosedOnce s)
    (refused : RefusesWrites s (.exec w r)) (top : s.stack = .run (.sendInLoop m) :: rest)
    (taken : step s (.exec w r) = some t) :
    Draining t ∧ HalfClosedOnce t := by
  obtain ⟨out, sent, accepted, halfCloses, stack⟩ := exec_send inv.lawful.sound top taken
  have below : .drainedTest ∉ t.stack := stack ▸ inv.untested_below top
  by_cases none : s.hist.halfCloses = []
  · have never : t.hist.halfCloses = [] := halfCloses.trans none
    refine ⟨⟨lawful_step inv.lawful taken, ?_, fun some => absurd never some,
      fun testing => absurd testing below⟩, halfClosedOnce_of_none never⟩
    intro up
    have open_ : s.conn.state_ ≠ .kDisconnected := fun down =>
      up (down_step inv.lawful.sound down taken)
    exact sendInLoop_coupled inv.lawful.sound open_ (inv.coupled open_) sent
  · have fails : w = .failed .EPIPE := by simpa [Label.failsWrite] using refused none
    rw [fails] at sent
    obtain ⟨conn, nothing⟩ := sendInLoop_refused inv.lawful.sound (inv.ended none)
      (clean.drained none) sent
    have same : Untouched s t := by
      refine ⟨by rw [conn], Or.inl (by rw [conn]), ?_, halfCloses, fun testing => absurd testing below⟩
      rw [accepted, nothing, List.append_nil]
    exact ⟨draining_untouched inv same taken, halfClosedOnce_untouched clean same⟩

theorem kept_write {c : Conn} {out : Output} {drained : Bool} (inv : Draining s)
    (clean : HalfClosedOnce s) (top : s.stack = .writeTest :: rest)
    (spec : DrainSpec s.conn c out drained) (taken : step s (.exec w r) = some t)
    (wrote : t = enter (deliver { s with stack := rest } (c, out))
      (if drained then [.drainedTest] else [])) : Draining t ∧ HalfClosedOnce t := by
  subst wrote
  have below := inv.untested_below top
  by_cases none : s.hist.halfCloses = []
  · refine ⟨⟨lawful_step inv.lawful taken, ?_, fun some => absurd none some, ?_⟩,
      halfClosedOnce_of_none none⟩
    · intro up
      have open_ : s.conn.state_ ≠ .kDisconnected := spec.state ▸ up
      exact spec.coupled (inv.coupled open_)
    · intro testing
      cases drained with
      | false => exact absurd testing below
      | true => exact ⟨none, spec.empty rfl⟩
  · obtain ⟨rfl, rfl, rfl⟩ := spec.idle (inv.ended none)
    have same : Untouched s (enter (deliver { s with stack := rest } (s.conn, {})) []) :=
      ⟨rfl, Or.inl rfl, List.append_nil _, rfl, fun testing => absurd testing below⟩
    exact ⟨draining_untouched inv same taken, halfClosedOnce_untouched clean same⟩

theorem kept_halfClose (inv : Draining s) (below : .drainedTest ∉ rest) (clean : HalfClosedOnce s)
    (ready : s.conn.channel_.isWriting = false →
      s.hist.halfCloses = [] ∧ s.conn.outputBuffer_.readable = [])
    (taken : step s l = some t) (ran : t = shutdownInLoop { s with stack := rest }) :
    Draining t ∧ HalfClosedOnce t := by
  subst ran
  have lawful := lawful_step inv.lawful taken
  unfold shutdownInLoop at *
  split at lawful
  · rename_i off
    obtain ⟨none, empty⟩ := ready off
    rw [if_pos off]
    refine ⟨⟨lawful, inv.coupled, fun _ => off, fun testing => absurd testing below⟩, ?_, ?_, ?_⟩
    · simp [none]
    · intro _
      exact empty
    · simp [none]
  · rename_i on
    rw [if_neg on]
    exact ⟨⟨lawful, inv.coupled, inv.ended, fun testing => absurd testing below⟩,
      clean.once, clean.drained, clean.last⟩

theorem kept_exec {frame : Frame} (inv : Draining s) (clean : HalfClosedOnce s)
    (refused : RefusesWrites s (.exec w r)) (early : InTime s (.exec w r))
    (taken : step s (.exec w r) = some t) (top : s.stack = frame :: rest)
    (did : Did { s with stack := rest } frame t) :
    Draining t ∧ HalfClosedOnce t := by
  have below := inv.untested_below top
  have through : Untouched s t → Draining t ∧ HalfClosedOnce t := fun same =>
    ⟨draining_untouched inv same taken, halfClosedOnce_untouched clean same⟩
  cases did with
  | send spec => exact kept_send inv clean refused top taken
  | write spec => exact kept_write inv clean top spec taken rfl
  | halfClose tested =>
    refine kept_halfClose inv below clean ?_ taken rfl
    intro off
    rcases tested with rfl | ⟨rfl, -⟩
    · obtain ⟨none, closed⟩ := early rfl (by rw [top]; rfl) off
      refine ⟨none, ?_⟩
      by_cases down : s.conn.state_ = .kDisconnected
      · exact closed down
      · by_contra some
        have writing := (inv.coupled down).mpr some
        rw [off] at writing
        cases writing
    · obtain ⟨none, empty, -⟩ := inv.tested (by rw [top]; exact List.mem_cons_self)
      exact ⟨none, empty⟩
  | close | destroy =>
    refine through ⟨rfl, Or.inr ⟨rfl, ?_⟩, List.append_nil _, rfl, ?_⟩
    · rfl
    · simp [closedBy, enter, deliver, below]
  | startRead =>
    exact through ⟨rfl, Or.inl (Conn.isWriting_congr (Conn.pollout_union_read _)),
      List.append_nil _, rfl, fun testing => absurd testing below⟩
  | stopRead =>
    exact through ⟨rfl, Or.inl (Conn.isWriting_congr (Conn.pollout_without_read _)),
      List.append_nil _, rfl, fun testing => absurd testing below⟩
  | establish =>
    refine through ⟨rfl, Or.inl (Conn.isWriting_congr (Conn.pollout_union_read _)),
      List.append_nil _, rfl, ?_⟩
    simp [enter, deliver, below]
  | user | destroyRest | callback =>
    refine through ⟨rfl, Or.inl rfl, rfl, rfl, ?_⟩
    simp [enter, below]
  | nothing | addTimer | queueForceClose | eventDone | closeCallback | remove =>
    exact through ⟨rfl, Or.inl rfl, rfl, rfl, fun testing => absurd testing below⟩

theorem kept_step (inv : Draining s) (clean : HalfClosedOnce s) (refused : RefusesWrites s l)
    (early : InTime s l) (taken : step s l = some t) :
    Draining t ∧ HalfClosedOnce t := by
  have through : Untouched s t → Draining t ∧ HalfClosedOnce t := fun same =>
    ⟨draining_untouched inv same taken, halfClosedOnce_untouched clean same⟩
  obtain ⟨-, stepped⟩ := stepped inv.lawful.sound taken
  by_cases executes : l.isExec = true
  · cases stepped with
    | exec top did => exact kept_exec inv clean refused early taken top did
    | failed => exact through ⟨rfl, Or.inl rfl, rfl, rfl, id⟩
    | _ => cases executes
  · exact through (stepped_untouched stepped (by simpa using executes))

theorem late_breaks (inv : Draining s) (late : ¬InTime s l) (taken : step s l = some t) :
    ¬HalfClosedOnce t := by
  simp only [InTime, Classical.not_imp] at late
  obtain ⟨executes, head, off, late⟩ := late
  intro clean
  obtain ⟨-, stepped⟩ := stepped inv.lawful.sound taken
  cases stepped with
  | failed top why =>
    rw [top] at head
    cases head
    cases why with
    | close other => simp [ClosesFrom] at other
  | exec top did =>
    rw [top] at head
    cases head
    cases did with
    | nothing other | user other => cases other
    | close other => simp [ClosesFrom] at other
    | halfClose =>
      simp only [shutdownInLoop, if_pos off] at clean
      refine late ⟨?_, fun _ => clean.drained (by simp)⟩
      have once := clean.once
      rw [List.length_append, List.length_singleton] at once
      exact List.eq_nil_of_length_eq_zero (by omega)
  | _ => cases executes

theorem halfCloses_step (lawful : Lawful s) (taken : step s l = some t) :
    t.hist.halfCloses = s.hist.halfCloses ∨
      (l.isExec = true ∧ ∃ now, t.hist.halfCloses = s.hist.halfCloses ++ [now]) ∧
        ((s.stack.head? = some (.run .shutdownInLoop) ∧ .run .shutdownInLoop ∉ t.stack) ∨
          (s.stack.head? = some .drainedTest ∧ s.conn.state_ = .kDisconnecting)) := by
  obtain ⟨-, stepped⟩ := stepped lawful.sound taken
  by_cases executes : l.isExec = true
  · cases stepped with
    | exec top did =>
      rcases did_halfCloses did with ⟨same, -⟩ | ⟨more, -, closing⟩
      · exact Or.inl same
      · refine Or.inr ⟨⟨rfl, _, more⟩, ?_⟩
        rcases closing with rfl | ⟨rfl, closing⟩
        · obtain ⟨pushed, executed, leaves⟩ := did_executed did
          have gone := (executed_accounts lawful.flow top executed (leaves_tame leaves)).2.2.2.2
          exact Or.inl ⟨by rw [top]; rfl, gone _⟩
        · exact Or.inr ⟨by rw [top]; rfl, closing⟩
    | failed => exact Or.inl rfl
    | _ => cases executes
  · exact Or.inl (stepped_halfCloses stepped (by simpa using executes))

structure Unasked (s : State) : Prop where
  lawful : Lawful s
  idle : ¬ShutdownPending s
  none : s.hist.halfCloses = []

theorem unasked_init (setup : Setup) : Unasked (init setup) := by
  refine ⟨lawful_init setup, ?_, rfl⟩
  simp [ShutdownPending, init]

theorem unasked_step (inv : Unasked s) (before : s.conn.state_ ≠ .kDisconnecting)
    (after : t.conn.state_ ≠ .kDisconnecting) (taken : step s l = some t) : Unasked t := by
  refine ⟨lawful_step inv.lawful taken, ?_, ?_⟩
  · intro pending
    rcases (passes_step inv.lawful taken).before pending with old | ⟨-, closing, -⟩
    · exact inv.idle old
    · exact after closing
  · rcases halfCloses_step inv.lawful taken with same | ⟨-, ⟨head, -⟩ | ⟨-, closing⟩⟩
    · exact same.trans inv.none
    · exact absurd (Or.inr (Or.inr (List.mem_of_head? head))) inv.idle
    · exact absurd closing before

/-- While a shutdownInLoop is under way, handleWrite does not drain outputBuffer_ in
    kDisconnecting, and handleClose does not run with output left. -/
structure Undisturbed (s : State) (l : Label) : Prop where
  drains : ShutdownPending s → l.isExec = true → s.stack.head? = some .drainedTest →
    s.conn.state_ ≠ .kDisconnecting
  closes : ShutdownPending s → Closes s l = true → s.conn.outputBuffer_.readable = []

theorem asked_state {caller : Caller} {c : Call} {r : Option Request}
    (asked : Asked s caller c t r) : t.conn.state_ = s.conn.state_ ∨
      (s.conn.alive ∧ t.conn.state_ = .kDisconnecting) := by
  cases asked with
  | shutdown up => exact Or.inr ⟨Or.inl up, rfl⟩
  | forceClose alive | forceCloseWithDelay alive => exact Or.inr ⟨alive, rfl⟩
  | send | startRead | stopRead | refused => exact Or.inl rfl

theorem stepped_state (stepped : Stepped s l t) (other : l.isExec = false) :
    t.conn.state_ = s.conn.state_ ∨ (s.conn.alive ∧ t.conn.state_ = .kDisconnecting) := by
  cases stepped with
  | threadCall _ asked | fireTimer _ _ _ asked | call _ asked =>
    have changed := asked_state asked
    exact changed
  | threadPush => exact Or.inl (by rw [threadPush_conn])
  | introduce _ ran | ownerTearsDown _ _ ran => exact Or.inl (by rw [ownerRan_conn ran])
  | exec | failed => cases other
  | queueTask | ownerRemoves | pollNone | pollSome | otherCode | dispatch | endHandling
  | nextFunctor | endFunctors | ret => exact Or.inl rfl

theorem closed_step (lawful : Lawful s)
    (off : s.conn.state_ = .kDisconnected → s.conn.channel_.isWriting = false)
    (taken : step s l = some t) (down : t.conn.state_ = .kDisconnected) :
    t.conn.outputBuffer_ = s.conn.outputBuffer_ ∧ t.conn.channel_.isWriting = false ∧
      (s.conn.state_ = .kDisconnected ∨ Closes s l = true ∨ s.conn.state_ = .kConnected) := by
  obtain ⟨-, stepped⟩ := stepped lawful.sound taken
  by_cases executes : l.isExec = true
  · cases stepped with
    | exec top did =>
      cases did with
      | send spec =>
        have down : s.conn.state_ = .kDisconnected := spec.state ▸ down
        obtain ⟨rfl, rfl⟩ := spec.closed down
        exact ⟨rfl, off down, Or.inl down⟩
      | write spec =>
        have down : s.conn.state_ = .kDisconnected := spec.state ▸ down
        obtain ⟨rfl, rfl, rfl⟩ := spec.idle (off down)
        exact ⟨rfl, off down, Or.inl down⟩
      | close origin alive =>
        exact ⟨rfl, rfl, Or.inr (Or.inl (exec_closes taken top alive origin down))⟩
      | destroy up => exact ⟨rfl, rfl, Or.inr (Or.inr up)⟩
      | startRead =>
        exact ⟨rfl, (Conn.isWriting_congr (Conn.pollout_union_read _)).trans (off down),
          Or.inl down⟩
      | stopRead =>
        exact ⟨rfl, (Conn.isWriting_congr (Conn.pollout_without_read _)).trans (off down),
          Or.inl down⟩
      | halfClose =>
        unfold shutdownInLoop at down ⊢
        split at down
        · rename_i idle
          rw [if_pos idle]
          exact ⟨rfl, off down, Or.inl down⟩
        · rename_i busy
          rw [if_neg busy]
          exact ⟨rfl, off down, Or.inl down⟩
      | establish => cases down
      | nothing | user | addTimer | destroyRest | queueForceClose | eventDone | callback
      | closeCallback | remove => exact ⟨rfl, off down, Or.inl down⟩
    | failed => exact ⟨rfl, off down, Or.inl down⟩
    | _ => cases executes
  · have other : l.isExec = false := by simpa using executes
    have same := stepped_untouched stepped other
    have before : s.conn.state_ = .kDisconnected := by
      rcases stepped_state stepped other with kept | ⟨-, closing⟩
      · exact kept ▸ down
      · rw [closing] at down
        cases down
    refine ⟨same.buffer, ?_, Or.inl before⟩
    rcases same.writing with kept | ⟨-, dropped⟩
    · exact kept.trans (off before)
    · exact dropped

theorem young_before (lawful : Lawful s) (taken : step s l = some t) (young : Young t.conn) :
    Young s.conn := by
  have changed : t.conn.state_ = s.conn.state_ ∨ t.conn.state_ = .kDisconnecting ∨
      t.conn.state_ = .kDisconnected ∨ s.conn.state_ = .kConnecting := by
    obtain ⟨-, stepped⟩ := stepped lawful.sound taken
    by_cases executes : l.isExec = true
    · cases stepped with
      | exec _ did =>
        rcases did_state did with same | ⟨down, -⟩ | ⟨-, connecting⟩
        · exact Or.inl same
        · exact Or.inr (Or.inr (Or.inl down))
        · exact Or.inr (Or.inr (Or.inr connecting))
      | failed => exact Or.inl rfl
      | _ => cases executes
    · rcases stepped_state stepped (by simpa using executes) with same | ⟨-, closing⟩
      · exact Or.inl same
      · exact Or.inr (Or.inl closing)
  unfold Young at young ⊢
  rcases changed with same | closing | down | connecting
  · rw [← same]
    exact young
  · rcases young with other | other <;> rw [closing] at other <;> cases other
  · rcases young with other | other <;> rw [down] at other <;> cases other
  · exact Or.inl connecting

structure Waiting (s : State) : Prop where
  tracked : Tracked s
  alone : Alone s
  off : s.conn.state_ = .kDisconnected → s.conn.channel_.isWriting = false
  early : Young s.conn → s.hist.halfCloses = []
  clear : ShutdownPending s → s.hist.halfCloses = [] ∧
    (s.conn.state_ = .kDisconnected → s.conn.outputBuffer_.readable = [])

theorem waiting_init (setup : Setup) : Waiting (init setup) := by
  refine ⟨tracked_init setup, alone_init setup, nofun, fun _ => rfl, ?_⟩
  intro pending
  exact absurd pending (unasked_init setup).idle

theorem waiting_step (inv : Waiting s) (calm : Undisturbed s l) (taken : step s l = some t) :
    Waiting t := by
  have lawful := inv.tracked.lawful
  have passes := passes_step lawful taken
  have grown := halfCloses_step lawful taken
  refine ⟨tracked_step inv.tracked taken, alone_step lawful inv.tracked.fifo inv.alone taken,
    fun down => (closed_step lawful inv.off taken down).2.1, ?_, ?_⟩
  · intro young
    have before := young_before lawful taken young
    rcases grown with same | ⟨-, ⟨head, -⟩ | ⟨-, closing⟩⟩
    · rw [same]
      exact inv.early before
    · exact absurd (List.mem_of_head? head) (inv.tracked.fifo.early before).2.1
    · rcases before with other | other <;> rw [closing] at other <;> cases other
  · intro pending
    rcases passes.before pending with old | ⟨up, closing, other⟩
    · obtain ⟨none_, empty⟩ := inv.clear old
      constructor
      · rcases grown with same | ⟨⟨executes, -⟩, ⟨head, gone⟩ | ⟨head, closing⟩⟩
        · rw [same]
          exact none_
        · exact absurd pending (passes.done inv.alone (List.mem_of_head? head) gone)
        · exact absurd closing (calm.drains old executes head)
      · intro down
        obtain ⟨buffer, -, before | closes | up⟩ := closed_step lawful inv.off taken down
        · rw [buffer]
          exact empty before
        · rw [buffer]
          exact calm.closes old closes
        · obtain ⟨not_queued, not_running, not_asked⟩ := inv.tracked.fifo.early (Or.inr up)
          rcases old with ⟨n, thread⟩ | queued | stacked
          · exact absurd thread (not_asked n)
          · exact absurd queued not_queued
          · exact absurd stacked not_running
    · rcases grown with same | ⟨⟨executes, -⟩, -⟩
      · refine ⟨same.trans (inv.early (Or.inr up)), ?_⟩
        rw [closing]
        nofun
      · rw [other] at executes
        cases executes

theorem Waiting.inTime (inv : Waiting s) : InTime s l := by
  intro _ head _
  exact inv.clear (Or.inr (Or.inr (List.mem_of_head? head)))

structure Overtaken (s : State) : Prop where
  pending : ShutdownPending s
  off : s.conn.channel_.isWriting = false
  late : s.hist.halfCloses ≠ [] ∨
    (s.conn.state_ = .kDisconnected ∧ s.conn.outputBuffer_.readable ≠ [])

theorem closes_closed (sound : s.conn.Sound) (closes : Closes s l = true)
    (taken : step s l = some t) : t.conn.state_ = .kDisconnected ∧ s.conn.alive ∧
      s.stack.head? ≠ some (.run .shutdownInLoop) := by
  cases l with
  | exec w r =>
    obtain ⟨frame, head, now⟩ := (Option.any_eq_true _ _).mp closes
    obtain ⟨rest, top⟩ := List.head?_eq_some_iff.mp head
    obtain ⟨alive, other, ran⟩ :=
      execFrame_closesNow (s := { s with stack := rest }) (w := w) now
    refine ⟨?_, alive, ?_⟩
    · have closed := handleClose_eq (s := { s with stack := rest }) sound alive
      simp only [step, top] at taken
      split at taken
      · cases taken
      · split at taken
        · cases taken
        · cases taken
        · rename_i same
          obtain ⟨rfl, rfl⟩ := List.cons.inj same
          obtain ⟨-, ⟨⟩⟩ := Option.ite_none_right_eq_some.mp taken
          rw [ran, closed]
          rfl
    · rw [head]
      simpa using other
  | _ => cases closes

theorem overtaken_of_disturbed (inv : Draining s) (inv' : Draining t) (disturbed : ¬Undisturbed s l)
    (taken : step s l = some t) : Overtaken t := by
  have passes := passes_step inv.lawful taken
  obtain ⟨-, stepped⟩ := stepped inv.lawful.sound taken
  by_cases drains : ShutdownPending s → l.isExec = true → s.stack.head? = some .drainedTest →
      s.conn.state_ ≠ .kDisconnecting
  · have closes : ¬(ShutdownPending s → Closes s l = true →
        s.conn.outputBuffer_.readable = []) := fun closes => disturbed ⟨drains, closes⟩
    simp only [Classical.not_imp] at closes
    obtain ⟨pending, closes, left⟩ := closes
    obtain ⟨down, alive, other⟩ := closes_closed inv.lawful.sound closes taken
    have pending' : ShutdownPending t := by
      rcases passes.pending pending with still | ⟨-, head⟩
      · exact still
      · exact absurd head other
    obtain ⟨buffer, off, -⟩ :=
      closed_step inv.lawful (fun dead => absurd dead (alive_up alive)) taken down
    exact ⟨pending', off, Or.inr ⟨down, buffer ▸ left⟩⟩
  · simp only [Classical.not_imp, not_not] at drains
    obtain ⟨pending, executes, head, closing⟩ := drains
    have off : s.conn.channel_.isWriting = false := (inv.tested (List.mem_of_head? head)).2.2
    have pending' : ShutdownPending t := by
      rcases passes.pending pending with still | ⟨-, other⟩
      · exact still
      · rw [head] at other
        cases other
    have some_ : t.hist.halfCloses ≠ [] := by
      cases stepped with
      | exec top did =>
        rw [top] at head
        cases head
        rcases did_halfCloses did with ⟨-, never⟩ | ⟨more, -⟩
        · exact absurd (Or.inr ⟨rfl, closing⟩) (never off)
        · simp [more]
      | failed top why =>
        rw [top] at head
        cases head
        cases why with
        | close other => simp [ClosesFrom] at other
      | _ => cases executes
    exact ⟨pending', inv'.ended some_, Or.inl some_⟩

theorem overtaken_step (inv : Draining s) (inv' : Draining t) (late : Overtaken s)
    (early : InTime s l) (taken : step s l = some t) : Overtaken t := by
  have pending : ShutdownPending t := by
    rcases (passes_step inv.lawful taken).pending late.pending with still | ⟨executes, head⟩
    · exact still
    · obtain ⟨none_, empty⟩ := early executes head late.off
      rcases late.late with some_ | ⟨down, left⟩
      · exact absurd none_ some_
      · exact absurd (empty down) left
  rcases late.late with some_ | ⟨down, left⟩
  · have more : t.hist.halfCloses ≠ [] := by
      rcases halfCloses_step inv.lawful taken with same | ⟨⟨-, now, grown⟩, -⟩
      · rw [same]
        exact some_
      · simp [grown]
    exact ⟨pending, inv'.ended more, Or.inl more⟩
  · have down' := down_step inv.lawful.sound down taken
    obtain ⟨buffer, off, -⟩ := closed_step inv.lawful (fun _ => late.off) taken down'
    exact ⟨pending, off, Or.inr ⟨down', buffer ▸ left⟩⟩

/-- A step that neither drains in kDisconnecting nor closes. -/
def Quiet (s : State) (l : Label) : Prop :=
  (l.isExec = true → s.stack.head? = some .drainedTest → s.conn.state_ ≠ .kDisconnecting) ∧
    Closes s l = false

instance (s : State) (l : Label) : Decidable (Quiet s l) :=
  inferInstanceAs (Decidable ((_ → _ → _) ∧ _))

/-- Two bytes are sent, of which the socket takes one and then the other; thread 7 shuts down.
    A send() of thread 8 that was queued later comes too late and fails. -/
def drainedRun : List Label :=
  [.introduce, .poll none, .endHandling, .nextFunctor, .exec (.written 0) .data,
    .exec (.written 0) .data, .call (.send [1, 2]), .exec (.written 1) .data, .ret, .endFunctors,
    .poll (some { pollout := true }), .dispatch, .exec (.written 0) .data,
    .exec (.written 0) .data, .exec (.written 0) .data, .exec (.written 1) .data,
    .exec (.written 0) .data, .threadCall 8 (.send [3]), .threadCall 7 .shutdown,
    .exec (.written 0) .data, .threadPush 7, .threadPush 8, .endHandling, .nextFunctor,
    .exec (.failed .EPIPE) .data, .nextFunctor, .exec (.failed .EPIPE) .data]

def sharedStart : List Label :=
  [.introduce, .poll none, .endHandling, .nextFunctor, .exec (.written 0) .data,
    .exec (.written 0) .data, .call (.send [1, 2]), .exec (.written 1) .data, .ret, .endFunctors,
    .threadCall 7 .shutdown, .threadPush 7]

def twiceRun : List Label :=
  sharedStart ++
  [.poll (some { pollout := true }), .dispatch, .exec (.written 0) .data, .exec (.written 0) .data,
    .exec (.written 0) .data, .exec (.written 1) .data, .exec (.written 0) .data,
    .exec (.failed .EPIPE) .data, .endHandling, .nextFunctor, .exec (.failed .EPIPE) .data]

def undrainedRun : List Label :=
  sharedStart ++
  [.poll (some { pollin := true }), .dispatch, .exec (.written 0) .data, .exec (.written 0) .data,
    .exec (.written 0) .endOfFile, .exec (.written 0) .data, .ret, .exec (.written 0) .data,
    .exec (.written 0) .data, .exec (.written 0) .data, .endHandling, .nextFunctor,
    .exec (.written 0) .data]

end TcpConnection
end Muduo
