import Muduo.Net.TcpConnectionSpec

/-!
What one step of the connection machine can do, said once: `Asked` for the entry
of an API function, `Did` and `Failed` for a frame of the loop thread, `Stepped`
for a step. The only assumption is that the connection is sound, which every
step keeps. Everything proved about runs goes through these cases.
-/
namespace Muduo
open Lib
namespace TcpConnection
variable {s t : State} {frame : Frame} {r : ReadResult} {w : WriteResult}

def Label.isExec : Label → Bool
  | .exec _ _ => true
  | _ => false

inductive Asked (s : State) (caller : Caller) : Call → State → Option Request → Prop where
  | send {bytes : List UInt8} (up : s.conn.state_ = .kConnected) :
      Asked s caller (.send bytes)
        { s with
          sends := s.sends + 1
          hist := { s.hist with called := s.hist.called ++ [⟨caller, s.sends, bytes⟩] } }
        (some (.runInLoop (.sendInLoop ⟨caller, s.sends, bytes⟩)))
  | shutdown (up : s.conn.state_ = .kConnected) :
      Asked s caller .shutdown
        { s with
          conn := { s.conn with state_ := .kDisconnecting }
          hist := { s.hist with promised := s.hist.returned } }
        (some (.runInLoop .shutdownInLoop))
  | forceClose (alive : s.conn.alive) :
      Asked s caller .forceClose
        { s with conn := { s.conn with state_ := .kDisconnecting } } (some .queueForceClose)
  | forceCloseWithDelay (alive : s.conn.alive) :
      Asked s caller .forceCloseWithDelay
        { s with conn := { s.conn with state_ := .kDisconnecting } }
        (some (.runInLoop .addTimerInLoop))
  | startRead : Asked s caller .startRead s (some (.runInLoop .startReadInLoop))
  | stopRead : Asked s caller .stopRead s (some (.runInLoop .stopReadInLoop))
  | refused {c : Call} : Asked s caller c s none

theorem asked (s : State) (caller : Caller) (c : Call) :
    Asked s caller c (checkAndSet s caller c).1 (checkAndSet s caller c).2 := by
  cases c with
  | send bytes =>
    simp only [checkAndSet]
    split
    · exact Asked.send ‹_›
    · exact Asked.refused
  | shutdown =>
    simp only [checkAndSet]
    split
    · exact Asked.shutdown ‹_›
    · exact Asked.refused
  | forceClose =>
    simp only [checkAndSet]
    split
    · exact Asked.forceClose ‹_›
    · exact Asked.refused
  | forceCloseWithDelay =>
    simp only [checkAndSet]
    split
    · exact Asked.forceCloseWithDelay ‹_›
    · exact Asked.refused
  | startRead => exact Asked.startRead
  | stopRead => exact Asked.stopRead

def closedBy (s : State) : State :=
  let s := deliver s (s.conn.disconnected, { updates := 1 })
  enter { s with hist := { s.hist with closed := true } } [.connectionCallback .down, .closeCallback]

def ClosesFrom (ev : Events) (frame : Frame) : Prop :=
  (frame = .hangUpTest ∧ ev.hangsUp) ∨ (frame = .readTest ∧ ev.reads)

/-- The frame calls handleClose on a connection that is up: a hang-up, the end of the
    stream, or forceClose(). -/
def Conn.closesNow (c : Conn) (r : ReadResult) (frame : Frame) : Bool :=
  c.alive &&
    match frame with
    | .hangUpTest => c.channel_.revents_.pollhup && !c.channel_.revents_.pollin
    | .readTest =>
      c.channel_.revents_.meets { pollin := true, pollpri := true, pollrdhup := true } &&
        r = .endOfFile
    | .run .forceCloseInLoop => true
    | _ => false

theorem endOfFile_of_closed (ran : execFrame s w r .readTest = .ok t) (alive : s.conn.alive)
    (down : t.conn.state_ = .kDisconnected) : r = .endOfFile := by
  cases r with
  | endOfFile => rfl
  | data | failed =>
    simp only [execFrame] at ran
    split at ran <;> cases ran <;> exact absurd down (alive_up alive)

theorem closesNow_of_origin {c : Conn} (alive : c.alive)
    (origin : ClosesFrom c.channel_.revents_ frame ∨ frame = .run .forceCloseInLoop)
    (ended : frame = .readTest → r = .endOfFile) : c.closesNow r frame = true := by
  rcases origin with (⟨rfl, hangs⟩ | ⟨rfl, reads⟩) | rfl
  · have hangs : c.channel_.revents_.pollhup = true ∧ c.channel_.revents_.pollin = false := hangs
    simp [Conn.closesNow, alive, hangs]
  · have reads : c.channel_.revents_.meets
        { pollin := true, pollpri := true, pollrdhup := true } = true := reads
    simp [Conn.closesNow, alive, reads, ended rfl]
  · simp [Conn.closesNow, alive]

theorem execFrame_closesNow (closes : s.conn.closesNow r frame = true) :
    s.conn.alive ∧ frame ≠ .run .shutdownInLoop ∧
      execFrame s w r frame = handleClose s := by
  simp only [Conn.closesNow, Bool.and_eq_true, decide_eq_true_eq] at closes
  obtain ⟨alive, calls⟩ := closes
  refine ⟨alive, ?_, ?_⟩
  · rintro rfl
    cases calls
  · split at calls
    · simp only [Bool.and_eq_true, Bool.not_eq_true'] at calls
      simp [execFrame, calls]
    · simp only [Bool.and_eq_true, decide_eq_true_eq] at calls
      simp [execFrame, calls]
    · simp [execFrame, runFunctor, alive]
    · cases calls

def Frame.mayIdle : Frame → Bool
  | .run .forceCloseInLoop | .run .startReadInLoop | .run .stopReadInLoop => true
  | .hangUpTest | .errorTest | .readTest | .writeTest | .drainedTest => true
  | _ => false

def Frame.callsUser : Frame → Bool
  | .run .writeCompleteCallback | .run (.highWaterMarkCallback _) | .run .task => true
  | .readTest => true
  | _ => false

inductive Did (s : State) : Frame → State → Prop where
  | nothing {frame : Frame} (idle : frame.mayIdle = true)
      (kept : frame = .drainedTest → s.conn.state_ ≠ .kDisconnecting) : Did s frame s
  | user {frame : Frame} (calls : frame.callsUser = true) : Did s frame (enter s [.userCode])
  | send {m : Message} {c : Conn} {out : Output} (spec : SendSpec s.conn m.bytes c out) :
      Did s (.run (.sendInLoop m))
        { deliver s (c, out) with hist := noteRan (deliver s (c, out)).hist m }
  | halfClose {frame : Frame} (tested : frame = .run .shutdownInLoop ∨
      (frame = .drainedTest ∧ s.conn.state_ = .kDisconnecting)) : Did s frame (shutdownInLoop s)
  | close {frame : Frame} (origin : ClosesFrom s.conn.channel_.revents_ frame ∨
      frame = .run .forceCloseInLoop) (alive : s.conn.alive) : Did s frame (closedBy s)
  | startRead (needed : s.conn.reading_ = false ∨ s.conn.channel_.isReading = false) :
      Did s (.run .startReadInLoop) (deliver s
        ({ s.conn.reinterest (s.conn.channel_.events_.union .kReadEvent) with reading_ := true },
          { updates := 1 }))
  | stopRead (needed : s.conn.reading_ = true ∨ s.conn.channel_.isReading = true) :
      Did s (.run .stopReadInLoop) (deliver s
        ({ s.conn.reinterest (s.conn.channel_.events_.without .kReadEvent) with reading_ := false },
          { updates := 1 }))
  | addTimer : Did s (.run .addTimerInLoop) { s with timers := s.timers + 1 }
  | establish (connecting : s.conn.state_ = .kConnecting) :
      Did s (.run .connectEstablished)
        (enter (deliver s (s.conn.established, { updates := 1 })) [.connectionCallback .up])
  | destroy (up : s.conn.state_ = .kConnected) :
      Did s (.run .connectDestroyed)
        (enter (deliver s (s.conn.disconnected, { updates := 1 }))
          [.connectionCallback .down, .removeChannel])
  | destroyRest (not_up : s.conn.state_ ≠ .kConnected) :
      Did s (.run .connectDestroyed) (enter s [.removeChannel])
  | queueForceClose : Did s .queueForceClose (pushFunctor s .forceCloseInLoop)
  | write {c : Conn} {out : Output} {drained : Bool} (spec : DrainSpec s.conn c out drained) :
      Did s .writeTest (enter (deliver s (c, out)) (if drained then [.drainedTest] else []))
  | eventDone :
      Did s .eventDone
        { s with conn := { s.conn with
            channel_ := { s.conn.channel_ with eventHandling_ := false } } }
  | callback {told : Told} :
      Did s (.connectionCallback told)
        (enter { s with hist := { s.hist with told := s.hist.told ++ [told] } } [.userCode])
  | closeCallback :
      Did s .closeCallback { s with hist := { s.hist with closes := s.hist.closes + 1 } }
  | remove (none : s.conn.channel_.isNoneEvent) (known : s.conn.channel_.index_ ≠ EPollPoller.kNew)
      (may : (loopView s).MayRemove) :
      Did s .removeChannel
        { s with
          conn := s.conn.setChannel
            ({ s.conn.channel_ with addedToLoop_ := false, index_ := EPollPoller.kNew },
              ⟨.none, .none⟩)
          hist := { s.hist with removals := s.hist.removals + 1 } }

inductive Failed (s : State) : Frame → String → Prop where
  | close {frame : Frame} (origin : ClosesFrom s.conn.channel_.revents_ frame)
      (dead : ¬s.conn.alive) :
      Failed s frame "state_ == kConnected || state_ == kDisconnecting"
  | establish (not_connecting : s.conn.state_ ≠ .kConnecting) :
      Failed s (.run .connectEstablished) "state_ == kConnecting"
  | remove {e : String}
      (refused : s.conn.channel_.remove (loopView s) s.conn.slot = .error e) :
      Failed s .removeChannel e

def Outcome (s : State) (frame : Frame) (r : Checked State) : Prop :=
  (∃ t, r = .ok t ∧ Did s frame t) ∨ (∃ e, r = .error e ∧ Failed s frame e)

theorem Did.outcome (did : Did s frame t) : Outcome s frame (.ok t) :=
  Or.inl ⟨t, rfl, did⟩

theorem idle_outcome (idle : frame.mayIdle = true) (other : frame ≠ .drainedTest) :
    Outcome s frame (.ok s) :=
  (Did.nothing idle fun same => absurd same other).outcome

theorem handleClose_eq (sound : s.conn.Sound) (alive : s.conn.alive) :
    handleClose s = .ok (closedBy s) := by
  simp only [handleClose, handleClose_spec sound alive, ok_bind]
  rfl

theorem handleClose_did (sound : s.conn.Sound) (alive : s.conn.alive)
    (origin : ClosesFrom s.conn.channel_.revents_ frame ∨ frame = .run .forceCloseInLoop) :
    Outcome s frame (handleClose s) := by
  rw [handleClose_eq sound alive]
  exact (Did.close origin alive).outcome

theorem handleClose_outcome (sound : s.conn.Sound)
    (origin : ClosesFrom s.conn.channel_.revents_ frame) : Outcome s frame (handleClose s) := by
  by_cases alive : s.conn.alive
  · exact handleClose_did sound alive (Or.inl origin)
  · simp only [handleClose, handleClose_fails alive, error_bind]
    exact Or.inr ⟨_, rfl, Failed.close origin alive⟩

theorem remove_ok {ch : Channel} {slot : Slot} {view : Channel.LoopView} {r : Channel × Slot}
    (synced : ch.Synced slot) (removed : ch.remove view slot = .ok r) :
    ch.isNoneEvent ∧ ch.index_ ≠ EPollPoller.kNew ∧ view.MayRemove := by
  unfold Channel.remove at removed
  obtain ⟨_, none, removed⟩ := bind_eq_ok.mp removed
  obtain ⟨_, may, removed⟩ := bind_eq_ok.mp removed
  refine ⟨assertThat_eq_ok.mp none, ?_, assertThat_eq_ok.mp may⟩
  intro new
  rw [synced.slot] at removed
  unfold EPollPoller.removeChannel at removed
  obtain ⟨_, registered, _⟩ := bind_eq_ok.mp removed
  have present := assertThat_eq_ok.mp registered
  simp [Channel.slotOf, new, Channel.kNew_ne_kAdded, Channel.kNew_ne_kDeleted] at present

theorem removeChannel_outcome (sound : s.conn.Sound) :
    Outcome s .removeChannel (execFrame s w r .removeChannel) := by
  cases removed : s.conn.channel_.remove (loopView s) s.conn.slot with
  | error e =>
    simp only [execFrame, removed, error_bind]
    exact Or.inr ⟨e, rfl, Failed.remove removed⟩
  | ok e =>
    obtain ⟨none, known, may⟩ := remove_ok sound.synced removed
    have spec := Channel.remove_spec sound.synced none known may
    simp only [execFrame, spec, ok_bind]
    exact (Did.remove none known may).outcome

theorem runFunctor_outcome (sound : s.conn.Sound) {f : Functor}
    (possible : w.Possible (writeLength s (.run f))) :
    Outcome s (.run f) (runFunctor s w f) := by
  cases f with
  | sendInLoop m =>
    obtain ⟨c, out, sent, spec⟩ := sendInLoop_spec sound m.bytes possible
    simp only [runFunctor, sent, ok_bind]
    exact (Did.send spec).outcome
  | shutdownInLoop => exact (Did.halfClose (Or.inl rfl)).outcome
  | forceCloseInLoop =>
    simp only [runFunctor]
    split
    · exact handleClose_did sound ‹_› (Or.inr rfl)
    · exact idle_outcome rfl nofun
  | startReadInLoop =>
    simp only [runFunctor, startReadInLoop_spec sound, ok_bind]
    split
    · exact (Did.startRead ‹_›).outcome
    · have same : deliver s (s.conn, {}) = s := by simp [deliver]
      simp only [pure_eq_ok, same]
      exact idle_outcome rfl nofun
  | stopReadInLoop =>
    simp only [runFunctor, stopReadInLoop_spec sound, ok_bind]
    split
    · exact (Did.stopRead ‹_›).outcome
    · have same : deliver s (s.conn, {}) = s := by simp [deliver]
      simp only [pure_eq_ok, same]
      exact idle_outcome rfl nofun
  | addTimerInLoop => exact Did.addTimer.outcome
  | connectEstablished =>
    by_cases connecting : s.conn.state_ = .kConnecting
    · simp only [runFunctor, connectEstablished_spec sound connecting, ok_bind]
      exact (Did.establish connecting).outcome
    · simp only [runFunctor, connectEstablished_fails connecting, error_bind]
      exact Or.inr ⟨_, rfl, Failed.establish connecting⟩
  | connectDestroyed =>
    simp only [runFunctor, connectDestroyed]
    split
    · simp only [disconnect_spec sound, ok_bind]
      exact (Did.destroy ‹_›).outcome
    · exact (Did.destroyRest ‹_›).outcome
  | writeCompleteCallback => exact (Did.user rfl).outcome
  | highWaterMarkCallback n => exact (Did.user rfl).outcome
  | task => exact (Did.user rfl).outcome

theorem execFrame_outcome (sound : s.conn.Sound) (possible : w.Possible (writeLength s frame))
    (code : frame ≠ .userCode) :
    Outcome s frame (execFrame s w r frame) := by
  cases frame with
  | userCode => exact absurd rfl code
  | run f => exact runFunctor_outcome sound possible
  | queueForceClose => exact Did.queueForceClose.outcome
  | hangUpTest =>
    simp only [execFrame]
    split
    · exact handleClose_outcome sound (Or.inl ⟨rfl, ‹_›⟩)
    · exact idle_outcome rfl nofun
  | errorTest => exact idle_outcome rfl nofun
  | readTest =>
    simp only [execFrame]
    split
    · cases r with
      | data => exact (Did.user rfl).outcome
      | endOfFile => exact handleClose_outcome sound (Or.inr ⟨rfl, ‹_›⟩)
      | failed => exact idle_outcome rfl nofun
    · exact idle_outcome rfl nofun
  | writeTest =>
    simp only [execFrame]
    split
    · obtain ⟨c, out, drained, wrote, spec⟩ := handleWrite_spec sound possible
      simp only [wrote, ok_bind]
      exact (Did.write spec).outcome
    · exact idle_outcome rfl nofun
  | eventDone => exact Did.eventDone.outcome
  | connectionCallback told => exact Did.callback.outcome
  | closeCallback => exact Did.closeCallback.outcome
  | drainedTest =>
    simp only [execFrame]
    split
    · exact (Did.halfClose (Or.inr ⟨rfl, ‹_›⟩)).outcome
    · exact (Did.nothing rfl fun _ => ‹_›).outcome
  | removeChannel => exact removeChannel_outcome sound

theorem Did.of_removeChannel (did : Did s .removeChannel t) :
    s.conn.channel_.isNoneEvent ∧ s.conn.channel_.index_ ≠ EPollPoller.kNew ∧
      (loopView s).MayRemove ∧ 0 < t.hist.removals := by
  cases did with
  | nothing other | user other => cases other
  | halfClose other | close other => simp [ClosesFrom] at other
  | remove none known may => exact ⟨none, known, may, Nat.succ_pos _⟩

theorem Did.of_connectDestroyed (did : Did s (.run .connectDestroyed) t) :
    (s.conn.state_ = .kConnected ∧
      t = enter (deliver s (s.conn.disconnected, { updates := 1 }))
        [.connectionCallback .down, .removeChannel]) ∨
      (s.conn.state_ ≠ .kConnected ∧ t = enter s [.removeChannel]) := by
  cases did with
  | nothing other | user other => cases other
  | halfClose other | close other => simp [ClosesFrom] at other
  | destroy up => exact Or.inl ⟨up, rfl⟩
  | destroyRest not_up => exact Or.inr ⟨not_up, rfl⟩

inductive OwnerRan (s : State) (f : Functor) : State → Prop where
  | here {rest : List Frame} (home : s.home = true) (top : s.stack = .userCode :: rest) :
      OwnerRan s f (enter s [.run f])
  | away (abroad : s.home = false) : OwnerRan s f (pushFunctor s f)

theorem ownerRan {f : Functor} (ran : ownerRuns s f = some t) : OwnerRan s f t := by
  unfold ownerRuns at ran
  split at ran
  · split at ran
    · cases ran
      exact OwnerRan.here ‹_› ‹_›
    · cases ran
  · cases ran
    exact OwnerRan.away (by simpa using ‹¬s.home = true›)

inductive Stepped (s : State) : Label → State → Prop where
  | threadCall {n : Nat} {c : Call} {t : State} {r : Option Request} (idle : s.threads n = none)
      (asked : Asked s (.other n) c t r) :
      Stepped s (.threadCall n c)
        { t with threads := Function.update s.threads n (r.map Request.functor) }
  | threadPush {n : Nat} {f : Functor} (busy : s.threads n = some f) :
      Stepped s (.threadPush n) (threadPush s n f)
  | queueTask : Stepped s .queueTask (pushFunctor s .task)
  | introduce {t : State} (fresh : s.introduced = false)
      (ran : OwnerRan { s with introduced := true } .connectEstablished t) : Stepped s .introduce t
  | ownerRemoves (owned : s.owned = true) (closed : 0 < s.hist.closes) :
      Stepped s .ownerRemoves (pushFunctor { s with owned := false } .connectDestroyed)
  | ownerTearsDown {t : State} (owned : s.owned = true) (introduced : s.introduced = true)
      (ran : OwnerRan { s with owned := false, torn := true } .connectDestroyed t) :
      Stepped s .ownerTearsDown t
  | pollNone (polling : s.phase = .polling) (empty : s.stack = []) :
      Stepped s (.poll none) { s with phase := .handling, active := false, todo := false }
  | pollSome {ev interest : Events} (polling : s.phase = .polling) (empty : s.stack = [])
      (registered : s.conn.slot.interest = some interest) (legal : interest.Returnable ev) :
      Stepped s (.poll (some ev))
        { s with
          conn := { s.conn with channel_ := s.conn.channel_.set_revents ev }
          phase := .handling, active := true, todo := true }
  | otherCode (phase : s.phase ≠ .functors) (empty : s.stack = []) :
      Stepped s .otherCode (enter { s with current := false } [.userCode])
  | dispatch (handling : s.phase = .handling) (empty : s.stack = []) (todo : s.todo = true) :
      Stepped s .dispatch
        (enter { s with
          conn := { s.conn with channel_ := { s.conn.channel_ with eventHandling_ := true } }
          todo := false, current := true }
          [.hangUpTest, .errorTest, .readTest, .writeTest, .eventDone])
  | fireTimer {t : State} {r : Option Request} (handling : s.phase = .handling)
      (empty : s.stack = []) (armed : 0 < s.timers)
      (asked : Asked { s with timers := s.timers - 1, current := false } .loop .forceClose t r) :
      Stepped s .fireTimer { t with stack := (r.map Request.frame).toList ++ t.stack }
  | endHandling (handling : s.phase = .handling) (empty : s.stack = []) (done : s.todo = false) :
      Stepped s .endHandling
        { s with phase := .functors, current := false, queue := s.queue.swap }
  | nextFunctor {f : Functor} {q : Batch Functor} (functors : s.phase = .functors)
      (empty : s.stack = []) (next : s.queue.next = some (f, q)) :
      Stepped s .nextFunctor (enter { s with queue := q } [.run f])
  | endFunctors (functors : s.phase = .functors) (empty : s.stack = [])
      (done : s.queue.batch = []) : Stepped s .endFunctors { s with phase := .polling }
  | call {c : Call} {t : State} {r : Option Request} {rest : List Frame}
      (top : s.stack = .userCode :: rest) (asked : Asked s .loop c t r) :
      Stepped s (.call c) { t with stack := (r.map Request.frame).toList ++ t.stack }
  | ret {rest : List Frame} (top : s.stack = .userCode :: rest) :
      Stepped s .ret { s with stack := rest }
  | exec {w : WriteResult} {r : ReadResult} {frame : Frame} {rest : List Frame} {t : State}
      (top : s.stack = frame :: rest) (did : Did { s with stack := rest } frame t) :
      Stepped s (.exec w r) t
  | failed {w : WriteResult} {r : ReadResult} {frame : Frame} {rest : List Frame} {e : String}
      (top : s.stack = frame :: rest) (why : Failed { s with stack := rest } frame e) :
      Stepped s (.exec w r) { s with fault := some e }

theorem exec_stepped {rest : List Frame} (sound : s.conn.Sound) (top : s.stack = frame :: rest)
    (code : frame ≠ .userCode) (possible : w.Possible (writeLength s frame)) :
    Stepped s (.exec w r) (settle s (execFrame { s with stack := rest } w r frame)) := by
  have same : writeLength s frame = writeLength { s with stack := rest } frame := by
    unfold writeLength
    split <;> rfl
  rcases execFrame_outcome (s := { s with stack := rest }) (r := r) sound (same ▸ possible) code with
    ⟨t, ok, did⟩ | ⟨e, failed, why⟩
  · rw [ok]
    exact Stepped.exec top did
  · rw [failed]
    exact Stepped.failed top why

theorem poll_stepped {revents : Option Events} (taken : step s (.poll revents) = some t) :
    Stepped s (.poll revents) t := by
  simp only [step] at taken
  split at taken
  · cases taken
  split at taken
  · rename_i ready
    split at taken
    · cases taken
      exact Stepped.pollNone ready.1 ready.2
    · rename_i registered
      split at taken
      · cases taken
        exact Stepped.pollSome ready.1 ready.2 registered ‹_›
      · cases taken
    · cases taken
  · cases taken

theorem stepped {l : Label} (sound : s.conn.Sound) (taken : step s l = some t) :
    s.fault = none ∧ Stepped s l t := by
  have running : s.fault = none := by
    cases failed : s.fault with
    | none => rfl
    | some e => simp [step, failed] at taken
  have unfailed : ¬s.fault.isSome = true := by simp [running]
  refine ⟨running, ?_⟩
  cases l with
  | poll revents => exact poll_stepped taken
  | threadCall n c =>
    simp only [step, if_neg unfailed] at taken
    split at taken
    · cases taken
      exact Stepped.threadCall ‹_› (asked s (.other n) c)
    · cases taken
  | threadPush n =>
    simp only [step, if_neg unfailed] at taken
    obtain ⟨f, busy, rfl⟩ := Option.map_eq_some_iff.mp taken
    exact Stepped.threadPush busy
  | queueTask =>
    simp only [step, if_neg unfailed] at taken
    cases taken
    exact Stepped.queueTask
  | introduce =>
    simp only [step, if_neg unfailed] at taken
    split at taken
    · exact Stepped.introduce ‹_› (ownerRan taken)
    · cases taken
  | ownerRemoves =>
    simp only [step, if_neg unfailed] at taken
    split at taken
    · rename_i ready
      cases taken
      exact Stepped.ownerRemoves ready.1 ready.2
    · cases taken
  | ownerTearsDown =>
    simp only [step, if_neg unfailed] at taken
    split at taken
    · rename_i ready
      exact Stepped.ownerTearsDown ready.1 ready.2 (ownerRan taken)
    · cases taken
  | otherCode =>
    simp only [step, if_neg unfailed] at taken
    split at taken
    · rename_i ready
      cases taken
      exact Stepped.otherCode ready.1 ready.2
    · cases taken
  | dispatch =>
    simp only [step, if_neg unfailed] at taken
    split at taken
    · rename_i ready
      cases taken
      exact Stepped.dispatch ready.1 ready.2.1 ready.2.2
    · cases taken
  | fireTimer =>
    simp only [step, if_neg unfailed] at taken
    split at taken
    · rename_i ready
      cases taken
      exact Stepped.fireTimer ready.1 ready.2.1 ready.2.2 (asked _ .loop .forceClose)
    · cases taken
  | endHandling =>
    simp only [step, if_neg unfailed] at taken
    split at taken
    · rename_i ready
      cases taken
      exact Stepped.endHandling ready.1 ready.2.1 ready.2.2
    · cases taken
  | nextFunctor =>
    simp only [step, if_neg unfailed] at taken
    split at taken
    · rename_i ready
      obtain ⟨⟨f, q⟩, next, rfl⟩ := Option.map_eq_some_iff.mp taken
      exact Stepped.nextFunctor ready.1 ready.2 next
    · cases taken
  | endFunctors =>
    simp only [step, if_neg unfailed] at taken
    split at taken
    · rename_i ready
      cases taken
      exact Stepped.endFunctors ready.1 ready.2.1 ready.2.2
    · cases taken
  | call c =>
    simp only [step, if_neg unfailed] at taken
    split at taken
    · cases taken
      exact Stepped.call ‹_› (asked s .loop c)
    · cases taken
  | ret =>
    simp only [step, if_neg unfailed] at taken
    split at taken
    · cases taken
      exact Stepped.ret ‹_›
    · cases taken
  | exec w r =>
    simp only [step, if_neg unfailed] at taken
    split at taken
    · cases taken
    · cases taken
    · rename_i frame rest code top
      split at taken
      · cases taken
        exact exec_stepped sound top code ‹_›
      · cases taken

theorem asked_sound {caller : Caller} {c : Call} {r : Option Request}
    (asked : Asked s caller c t r) (sound : s.conn.Sound) : t.conn.Sound := by
  cases asked <;> exact ⟨sound.synced, sound.valid⟩

theorem did_sound (did : Did s frame t) (sound : s.conn.Sound) : t.conn.Sound := by
  cases did with
  | send spec => exact spec.sound
  | write spec => exact spec.sound
  | close | destroy => exact sound_disconnected sound
  | establish => exact sound_established sound
  | startRead | stopRead => exact ⟨Channel.synced_updated _ _, sound.valid⟩
  | halfClose =>
    unfold shutdownInLoop
    split <;> exact sound
  | eventDone => exact ⟨⟨sound.synced.index, sound.synced.slot⟩, sound.valid⟩
  | remove => exact ⟨⟨Or.inl rfl, rfl⟩, sound.valid⟩
  | nothing | user | addTimer | destroyRest | queueForceClose | callback | closeCallback =>
    exact sound

theorem ownerRan_conn {f : Functor} (ran : OwnerRan s f t) : t.conn = s.conn := by
  cases ran <;> rfl

theorem threadPush_eq (s : State) (n : Nat) (f : Functor) :
    ∃ returned, threadPush s n f =
      { s with
        threads := Function.update s.threads n none
        queue := s.queue.push f
        hist := { s.hist with returned := returned } } := by
  cases f <;> exact ⟨_, rfl⟩

theorem threadPush_conn (n : Nat) (f : Functor) : (threadPush s n f).conn = s.conn := by
  cases f <;> rfl

theorem sound_step {l : Label} (sound : s.conn.Sound) (taken : step s l = some t) :
    t.conn.Sound := by
  obtain ⟨-, stepped⟩ := stepped sound taken
  cases stepped with
  | threadCall _ asked =>
    have kept := asked_sound asked sound
    exact kept
  | threadPush =>
    rw [threadPush_conn]
    exact sound
  | introduce _ ran =>
    rw [ownerRan_conn ran]
    exact sound
  | ownerTearsDown _ _ ran =>
    rw [ownerRan_conn ran]
    exact sound
  | pollSome | dispatch => exact ⟨⟨sound.synced.index, sound.synced.slot⟩, sound.valid⟩
  | fireTimer _ _ _ asked =>
    have kept := asked_sound asked sound
    exact kept
  | call _ asked =>
    have kept := asked_sound asked sound
    exact kept
  | exec _ did => exact did_sound did sound
  | queueTask | ownerRemoves | pollNone | otherCode | endHandling | nextFunctor | endFunctors
  | ret | failed => exact sound

theorem sound_init (setup : Setup) : (init setup).conn.Sound := by
  constructor
  · exact ⟨Or.inl rfl, rfl⟩
  · exact (holds_of_ok (Buffer.new_spec Buffer.kInitialSize) (Conn.new_outputBuffer setup)).1

end TcpConnection
end Muduo
