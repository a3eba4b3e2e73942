import Muduo.Net.TcpConnectionLife
import Muduo.Net.TcpServerTurns

/-!
What one step of the server machine can do, said once: every step is a `Turn`,
and `Account` says which of the steps that matter for the life of the server or
of a connection it was. The frames of a connection are executed as in
TcpConnection, so what they can do is known from there.
-/
namespace Muduo
open Lib
namespace TcpServer
open TcpConnection (Conn Call ReadResult WriteResult Did Asked)
variable {s t : State} {l : Label}

structure SameServer (s t : State) : Prop where
  server : t.server = s.server
  life : t.life = s.life
  late : t.late = s.late

def establishing (c : Nat) : Frame := .connection c (.run .connectEstablished)
def destroying (c : Nat) : Frame := .connection c (.run .connectDestroyed)
def closing (c : Nat) : Frame := .connection c .closeCallback

def Frame.vital : Frame → Bool
  | .connection _ (.run .connectEstablished) | .connection _ (.run .connectDestroyed) => true
  | .connection _ .closeCallback | .removeConnectionInLoop _ | .destructor _ => true
  | _ => false

def Closes (s : State) : Label → Bool
  | .exec i _ r =>
    match (s.loops i).stack with
    | .connection c f :: _ => s.sessions[c]?.any fun session => session.conn.closesNow r f
    | _ => false
  | _ => false

inductive Account (s : State) : Label → State → Option (Nat × Frame) → List (Nat × Frame) →
    List Moment → Prop where
  | plain {l : Label} {t : State} {lost : Option (Nat × Frame)} {gained : List (Nat × Frame)}
      (same : SameServer s t) (fault : ∀ e, t.fault ≠ some (.server e))
      (off : ∀ i x, lost = some (i, x) → x.vital = false)
      (on : ∀ i x, (i, x) ∈ gained → x.vital = false) : Account s l t lost gained []
  | accept {setup : TcpConnection.Setup} {t : State} (alive : s.life = .alive)
      (few : s.server.nextConnId_ < 2 ^ 31 - 1) (life : t.life = s.life) (late : t.late = s.late)
      (fault : t.fault = s.fault)
      (server : t.server =
        { s.server with
          threadPool_ := s.server.threadPool_.getNextLoop.2
          nextConnId_ := s.server.nextConnId_ + 1
          connections_ := s.server.connections_.insert
            (connName s.server.name_ s.server.ipPort_ s.server.nextConnId_) s.sessions.length })
      (sessions : t.sessions = s.sessions ++
        [⟨connName s.server.name_ s.server.ipPort_ s.server.nextConnId_,
          s.server.threadPool_.getNextLoop.1, .new setup, 0, 0, []⟩]) :
      Account s (.accept setup) t none
        [(s.server.threadPool_.getNextLoop.1, establishing s.sessions.length)] []
  | event {l : Label} {t : State} {c : Nat} {gained : List (Nat × Frame)} (same : SameServer s t)
      (fault : t.fault = s.fault) (started : Started s c)
      (on : ∀ i x, (i, x) ∈ gained → x.vital = false) : Account s l t none gained [.event c]
  | establish {l : Label} {t : State} {i c : Nat} {gained : List (Nat × Frame)}
      (same : SameServer s t) (fault : t.fault = s.fault)
      (on : ∀ i x, (i, x) ∈ gained → x.vital = false) :
      Account s l t (some (i, establishing c)) gained [.established c]
  | close {l : Label} {t : State} {i c : Nat} {x : Frame} (same : SameServer s t)
      (fault : t.fault = s.fault) (closes : Closes s l = true) (off : x.vital = false)
      (before : ∃ e, s.sessions[c]? = some e ∧ e.conn.alive)
      (after : ∃ e, t.sessions[c]? = some e ∧ e.conn.state_ = .kDisconnected) :
      Account s l t (some (i, x))
        [(i, .connection c (.connectionCallback .down)), (i, closing c)] []
  | closeCallback {l : Label} {t : State} {i c : Nat} (same : SameServer s t)
      (fault : t.fault = s.fault) (not_dead : s.life ≠ .dead) :
      Account s l t (some (i, closing c)) [(baseLoop, .removeConnectionInLoop c)]
        [.closeCallback c]
  | lateCallback {l : Label} {t : State} {i c : Nat} (server : t.server = s.server)
      (life : t.life = s.life) (dead : s.life = .dead) (late : t.late = s.late + 1)
      (fault : t.fault = some .useAfterDestructor) :
      Account s l t (some (i, closing c)) [] [.closeCallback c]
  | erase {l : Label} {t : State} {i c : Nat} {e : Session} (found : s.sessions[c]? = some e)
      (not_dead : s.life ≠ .dead) (member : e.name_ ∈ s.server.connections_)
      (server : t.server =
        { s.server with connections_ := s.server.connections_.erase e.name_ })
      (life : t.life = s.life) (late : t.late = s.late) (fault : t.fault = s.fault) :
      Account s l t (some (i, .removeConnectionInLoop c)) [(e.loop_, destroying c)] [.erased c]
  | missed {l : Label} {t : State} {i c : Nat} {e : Session} (found : s.sessions[c]? = some e)
      (member : e.name_ ∉ s.server.connections_) :
      Account s l t (some (i, .removeConnectionInLoop c)) [] []
  | lateRemoval {l : Label} {t : State} {i c : Nat} (server : t.server = s.server)
      (life : t.life = s.life) (dead : s.life = .dead) (late : t.late = s.late + 1)
      (fault : t.fault = some .useAfterDestructor) :
      Account s l t (some (i, .removeConnectionInLoop c)) [] []
  | destroy {l : Label} {t : State} {i c : Nat} {gained : List (Nat × Frame)}
      (same : SameServer s t) (fault : t.fault = s.fault)
      (on : ∀ i x, (i, x) ∈ gained → x.vital = false) :
      Account s l t (some (i, destroying c)) gained [.destroyed c]
  | begin {t : State} (server : t.server = s.server) (alive : s.life = .alive)
      (life : t.life = .destructing) (late : t.late = s.late) (fault : t.fault = s.fault)
      (sessions : t.sessions = s.sessions) :
      Account s .destroy t none
        [(baseLoop, .destructor (s.server.connections_.entries.map Sigma.snd))] []
  | tearDown {t : State} {c : Nat} {e : Session} {left : List Nat} (same : SameServer s t)
      (fault : t.fault = s.fault) (found : s.sessions[c]? = some e) (member : c ∈ left)
      (sessions : t.sessions = s.sessions) :
      Account s (.tearDown c) t (some (baseLoop, .destructor left))
        [(baseLoop, .destructor (left.erase c)), (e.loop_, destroying c)] [.tornDown c]
  | finish {l : Label} {t : State} {i : Nat} (server : t.server = s.server)
      (life : t.life = .dead) (late : t.late = s.late) (fault : t.fault = s.fault)
      (sessions : t.sessions = s.sessions) :
      Account s l t (some (i, .destructor [])) [] []

section Connection
variable {i c : Nat} {e : Session} {f : TcpConnection.Frame} {u : TcpConnection.State}
  {rest : List Frame} {w : WriteResult} {r : ReadResult} {loop : Loop}

theorem not_server (running : s.fault = none) (text : String) : s.fault ≠ some (.server text) := by
  rw [running]
  nofun

theorem did_closing {v : TcpConnection.State} (did : Did v f u) (empty : v.stack = [])
    (member : .closeCallback ∈ u.stack) :
    u = TcpConnection.closedBy v ∧ v.conn.alive ∧
      (TcpConnection.ClosesFrom v.conn.channel_.revents_ f ∨ f = .run .forceCloseInLoop) := by
  cases did with
  | close origin alive => exact ⟨rfl, alive, origin⟩
  | halfClose =>
    unfold TcpConnection.shutdownInLoop at member
    split at member <;> simp [empty] at member
  | @write _ _ drained _ =>
    cases drained <;> simp [TcpConnection.enter, TcpConnection.deliver, empty] at member
  | nothing | user | send | startRead | stopRead | addTimer | establish | destroy | destroyRest
  | queueForceClose | eventDone | callback | closeCallback | remove =>
    simp [TcpConnection.enter, TcpConnection.deliver, TcpConnection.pushFunctor, empty] at member

theorem left_minor (did : Did (view e loop c) f u) (open_ : .closeCallback ∉ u.stack) {x : Frame}
    (member : x ∈ leftBy c u) :
    x.vital = false ∧ (x = .userCode ∨ ∃ g, x = .connection c g) := by
  obtain ⟨pushed, executed, leaves⟩ := TcpConnection.did_executed did
  have stack : u.stack = pushed := executed.stack.trans (List.append_nil _)
  obtain ⟨fs, waiting, foreign⟩ := executed.queued
  have waiting : u.queue.waiting = fs := waiting
  rw [leftBy, List.mem_append, List.mem_map, List.mem_map] at member
  rcases member with ⟨g, pushed_g, rfl⟩ | ⟨h, queued, rfl⟩
  · cases g with
    | userCode => exact ⟨rfl, Or.inl rfl⟩
    | run h => exact absurd (stack ▸ pushed_g) ((TcpConnection.leaves_tame leaves).runs h)
    | closeCallback => exact absurd pushed_g open_
    | _ => exact ⟨rfl, Or.inr ⟨_, rfl⟩⟩
  · rcases foreign h (waiting ▸ queued) with (rfl | ⟨n, rfl⟩) | rfl <;>
      exact ⟨rfl, Or.inr ⟨_, rfl⟩⟩

theorem grown_of_did (did : Did (view e loop c) f u) (sound : e.conn.Sound) :
    e.Grown (e.absorb u) := by
  refine ⟨rfl, rfl, TcpConnection.did_sound did sound, ?_⟩
  intro down
  rcases TcpConnection.did_state did with same | ⟨closed, -⟩ | ⟨-, connecting⟩
  · exact same.trans down
  · exact closed
  · have connecting : e.conn.state_ = .kConnecting := connecting
    rw [down] at connecting
    cases connecting

theorem untouched_of_did (did : Did (view e loop c) f u) (fresh : e.Fresh) (early : Early f)
    (other : f ≠ .run .connectEstablished) :
    e.absorb u = e ∧ u.stack = [.removeChannel] ∧ u.queue.waiting = [] := by
  rcases early with rfl | rfl | rfl
  · exact absurd rfl other
  · rcases did.of_connectDestroyed with ⟨up, -⟩ | ⟨-, rfl⟩
    · have up : e.conn.state_ = .kConnected := up
      rw [fresh.state] at up
      cases up
    · refine ⟨?_, rfl, rfl⟩
      simp [Session.absorb, TcpConnection.enter, view, TcpConnection.History.empty]
  · exact absurd fresh.index did.of_removeChannel.2.1

theorem exec_turn (inv : Housed s) (top : (s.loops i).stack = .connection c f :: rest)
    (found : s.sessions[c]? = some e) (did : Did (view e (s.loops i) c) f u) :
    Turn s (note (absorb (pop s i) i c e u) (moments c f)) (some (i, .connection c f))
      ((leftBy c u).map (Prod.mk i)) (moments c f) := by
  obtain ⟨⟨e', found', home⟩, early⟩ := inv.placed i _ (owed_top top)
  rw [found] at found'
  cases found'
  have there : c < s.sessions.length := (List.getElem?_eq_some_iff.mp found).1
  have started : Started (note (absorb (pop s i) i c e u) (moments c f)) c ∨
      (e.absorb u = e ∧ u.stack = [.removeChannel] ∧ u.queue.waiting = []) := by
    by_cases first : f = .run .connectEstablished
    · subst first
      exact Or.inl (List.mem_append_right _ (List.mem_singleton_self _))
    · by_cases before : Started s c
      · exact Or.inl (List.mem_append_left _ before)
      · exact Or.inr (untouched_of_did did (inv.fresh c e found before)
          (early.resolve_right before) first)
  have same := rounds_absorb (pop s i) i c e u
  rw [rounds_pop] at same
  have at_loop : ∀ j, ((absorb (pop s i) i c e u).loops j).todo = (s.loops j).todo ∧
      ((absorb (pop s i) i c e u).loops j).phase = (s.loops j).phase ∧
      ((absorb (pop s i) i c e u).loops j).queue.batch = (s.loops j).queue.batch := by
    intro j
    have here := congrFun same j
    simpa only [rounds, Prod.mk.injEq] using here
  refine turn_set inv found rfl (grown_of_did did (inv.sound c e found)) (started.imp_right And.left)
    (fun n d g busy => Or.inl busy) ?_ ?_ rfl ?_ ?_
  · intro j d member
    rw [← (at_loop j).1]
    exact member
  · intro j
    have batch := inv.batch j
    rw [← (at_loop j).2.1, ← (at_loop j).2.2] at batch
    exact batch
  · intro j x
    have popped := owed_pop top j x
    have absorbed := owed_absorb (pop s i) i c j e u x
    have noted : owed (note (absorb (pop s i) i c e u) (moments c f)) j x =
        owed (absorb (pop s i) i c e u) j x := rfl
    simp only [Option.toList_some]
    omega
  · intro j x member
    obtain ⟨y, left, pair⟩ := List.mem_map.mp member
    obtain ⟨rfl, rfl⟩ := Prod.mk.inj pair
    have session : ∃ d, (s.sessions.set c (e.absorb u))[c]? = some d ∧ d.loop_ = i :=
      ⟨e.absorb u, List.getElem?_set_self there, home⟩
    rw [leftBy, List.mem_append, List.mem_map, List.mem_map] at left
    rcases started with started | ⟨-, stack, queue⟩
    · rcases left with ⟨g, -, rfl⟩ | ⟨h, -, rfl⟩
      · cases g with
        | userCode => trivial
        | _ => exact ⟨session, Or.inr started⟩
      · exact ⟨session, Or.inr started⟩
    · rw [stack, queue] at left
      rcases left with ⟨g, pushed, rfl⟩ | ⟨h, queued, -⟩
      · rw [List.mem_singleton.mp pushed]
        exact ⟨session, Or.inl (Or.inr (Or.inr rfl))⟩
      · cases queued

theorem moments_minor {c : Nat} (minor : (Frame.connection c f).vital = false) :
    moments c f = [] := by
  cases f with
  | run h => cases h <;> first | rfl | cases minor
  | closeCallback => cases minor
  | _ => rfl

theorem closes_of_did (top : (s.loops i).stack = .connection c f :: rest)
    (found : s.sessions[c]? = some e)
    (ran : TcpConnection.execFrame (view e (s.loops i) c) w r f = .ok u)
    (did : Did (view e (s.loops i) c) f u) (member : .closeCallback ∈ u.stack) :
    Closes s (.exec i w r) = true := by
  obtain ⟨rfl, alive, origin⟩ := did_closing did rfl member
  simp only [Closes, top, found, Option.any_some]
  refine TcpConnection.closesNow_of_origin alive origin ?_
  rintro rfl
  exact TcpConnection.endOfFile_of_closed ran alive rfl

theorem exec_account (running : s.fault = none)
    (top : (s.loops i).stack = .connection c f :: rest) (found : s.sessions[c]? = some e)
    (ran : TcpConnection.execFrame (view e (s.loops i) c) w r f = .ok u)
    (did : Did (view e (s.loops i) c) f u) (other : f ≠ .closeCallback) :
    Account s (.exec i w r) (note (absorb (pop s i) i c e u) (moments c f))
      (some (i, .connection c f)) ((leftBy c u).map (Prod.mk i)) (moments c f) := by
  have there : c < s.sessions.length := (List.getElem?_eq_some_iff.mp found).1
  have server : SameServer s (note (absorb (pop s i) i c e u) (moments c f)) := ⟨rfl, rfl, rfl⟩
  by_cases closes : .closeCallback ∈ u.stack
  · have frees := closes_of_did top found ran did closes
    obtain ⟨rfl, alive, origin⟩ := did_closing did rfl closes
    have minor : (Frame.connection c f).vital = false := by
      rcases origin with (⟨rfl, -⟩ | ⟨rfl, -⟩) | rfl <;> rfl
    rw [moments_minor minor]
    exact Account.close ⟨rfl, rfl, rfl⟩ rfl frees minor ⟨e, found, alive⟩
      ⟨_, List.getElem?_set_self there, rfl⟩
  · have on : ∀ j x, (j, x) ∈ (leftBy c u).map (Prod.mk i) → x.vital = false := by
      intro j x member
      obtain ⟨y, left, pair⟩ := List.mem_map.mp member
      obtain ⟨rfl, rfl⟩ := Prod.mk.inj pair
      exact (left_minor did closes left).1
    by_cases minor : (Frame.connection c f).vital = false
    · rw [moments_minor minor]
      refine Account.plain ⟨rfl, rfl, rfl⟩ (not_server running) ?_ on
      rintro j x pair
      cases pair
      exact minor
    · cases f with
      | run h =>
        cases h with
        | connectEstablished => exact Account.establish server rfl on
        | connectDestroyed => exact Account.destroy server rfl on
        | _ => exact absurd rfl minor
      | closeCallback => exact absurd rfl other
      | _ => exact absurd rfl minor

def Moved (s : State) (l : Label) (t : State) : Prop :=
  ∃ lost gained notes, Turn s t lost gained notes ∧ Account s l t lost gained notes

theorem Moved.plain {l : Label} {lost : Option (Nat × Frame)} {gained : List (Nat × Frame)}
    (turn : Turn s t lost gained []) (same : SameServer s t)
    (fault : ∀ e, t.fault ≠ some (.server e)) (off : ∀ i x, lost = some (i, x) → x.vital = false)
    (on : ∀ i x, (i, x) ∈ gained → x.vital = false) : Moved s l t :=
  ⟨lost, gained, [], turn, Account.plain same fault off on⟩

theorem callback_account (inv : Housed s) (top : (s.loops i).stack = closing c :: rest)
    (found : s.sessions[c]? = some e) (did : Did (view e (s.loops i) c) .closeCallback u)
    (moved : t = removeConnection (note (absorb (pop s i) i c e u) [.closeCallback c]) i c) :
    Moved s (.exec i w r) t := by
  have there : c < s.sessions.length := (List.getElem?_eq_some_iff.mp found).1
  obtain ⟨-, early⟩ := inv.placed i _ (owed_top top)
  have started : Started s c := by
    rcases early with (impossible | impossible | impossible) | started
    · cases impossible
    · cases impossible
    · cases impossible
    · exact started
  have turn := exec_turn inv top found did
  have nothing : leftBy c u = [] := by
    cases did with
    | nothing other | user other => cases other
    | halfClose other | close other => simp [TcpConnection.ClosesFrom] at other
    | closeCallback => rfl
  rw [nothing] at turn
  subst moved
  unfold removeConnection
  split
  · rename_i dead
    refine ⟨_, _, _, ⟨turn.owed, turn.journal, turn.old, turn.new, turn.placed, turn.slots, turn.todo,
      turn.batch⟩, Account.lateCallback rfl rfl dead rfl rfl⟩
  · rename_i not_dead
    refine ⟨_, _, _, turn.run ⟨rfl, turn.started started, ?_⟩, Account.closeCallback ?_ ?_ not_dead⟩
    · exact ⟨e.absorb u, List.getElem?_set_self there⟩
    · unfold runInLoop
      split <;> exact ⟨rfl, rfl, rfl⟩
    · unfold runInLoop
      split <;> rfl

theorem connection_moved (inv : Housed s) (running : s.fault = none)
    (top : (s.loops i).stack = .connection c f :: rest) (found : s.sessions[c]? = some e)
    (possible : w.Possible (TcpConnection.writeLength (view e (s.loops i) c) f))
    (code : f ≠ .userCode) (moved : t = execConnection s i c e w r f) :
    Moved s (.exec i w r) t := by
  have sound : (view e (s.loops i) c).conn.Sound := inv.sound c e found
  rcases TcpConnection.execFrame_outcome (r := r) sound possible code with
    ⟨u, ran, did⟩ | ⟨text, failed, -⟩
  · simp only [execConnection, ran] at moved
    by_cases callback : f = .closeCallback
    · subst callback
      rw [if_pos rfl] at moved
      exact callback_account inv top found did moved
    · rw [if_neg callback] at moved
      subst moved
      exact ⟨_, _, _, exec_turn inv top found did,
        exec_account running top found ran did callback⟩
  · simp only [execConnection, failed] at moved
    subst moved
    have turn : Turn s { s with fault := some (.connection text) } none [] [] :=
      turn_same inv rfl rfl rfl (List.append_nil _).symm (fun _ _ => rfl) (by simp)
    exact .plain turn ⟨rfl, rfl, rfl⟩ (by simp) (by simp) (by simp)

theorem removal_moved (inv : Housed s) (top : (s.loops i).stack = .removeConnectionInLoop c :: rest)
    (found : s.sessions[c]? = some e) (moved : t = removeConnectionInLoop (pop s i) c e) :
    Moved s (.exec i w r) t := by
  have placed := inv.placed i _ (owed_top top)
  have popped : ∀ j x, owed (pop s i) j x +
      (some (i, Frame.removeConnectionInLoop c)).toList.count (j, x) =
        owed s j x + ([] : List (Nat × Frame)).count (j, x) := fun j x => owed_pop top j x
  have turn : Turn s (pop s i) (some (i, .removeConnectionInLoop c)) [] [] :=
    turn_same inv rfl rfl (rounds_pop s i) (List.append_nil _).symm popped (by simp)
  subst moved
  unfold removeConnectionInLoop
  split
  · rename_i dead
    exact ⟨_, _, _, ⟨turn.owed, turn.journal, turn.old, turn.new, turn.placed, turn.slots, turn.todo,
      turn.batch⟩, Account.lateRemoval rfl rfl dead rfl rfl⟩
  · rename_i not_dead
    by_cases member : e.name_ ∈ s.server.connections_
    · have member' : e.name_ ∈ (pop s i).server.connections_ := member
      simp only [member', if_true]
      have balance : ∀ j x, owed (queueInLoop (pop s i) e.loop_ (.connection c .connectDestroyed)) j x +
          (some (i, Frame.removeConnectionInLoop c)).toList.count (j, x) =
            owed s j x + [(e.loop_, destroying c)].count (j, x) := by
        intro j x
        have before := owed_pop top j x
        have queued := owed_queueInLoop (pop s i) e.loop_ j (.connection c .connectDestroyed) x
        simp only [Functor.frame] at queued
        simp only [Option.toList_some, destroying]
        omega
      refine ⟨_, _, _, turn_same inv rfl rfl ?_ rfl balance ?_,
        Account.erase found not_dead member rfl rfl rfl rfl⟩
      · have same := rounds_queueInLoop (pop s i) e.loop_ (.connection c .connectDestroyed)
        rw [rounds_pop] at same
        exact same
      · intro j x gained
        obtain ⟨rfl, rfl⟩ := Prod.mk.inj (List.mem_singleton.mp gained)
        exact ⟨⟨e, found, rfl⟩, Or.inl (Or.inr (Or.inl rfl))⟩
    · have absent : e.name_ ∉ (pop s i).server.connections_ := member
      simp only [absent, if_false]
      exact ⟨_, _, _, ⟨turn.owed, turn.journal, turn.old, turn.new, turn.placed, turn.slots, turn.todo,
        turn.batch⟩, Account.missed found member⟩

theorem exec_moved {frame : Frame} (inv : Housed s) (running : s.fault = none)
    (top : (s.loops i).stack = frame :: rest) (taken : exec s i w r frame = some t) :
    Moved s (.exec i w r) t := by
  cases frame with
  | userCode => cases taken
  | connection c f =>
    simp only [exec] at taken
    split at taken
    · cases taken
    · rename_i e found
      split at taken
      · rename_i ready
        cases taken
        exact connection_moved inv running top found ready.2 ready.1 rfl
      · cases taken
  | removeConnectionInLoop c =>
    simp only [exec] at taken
    obtain ⟨e, found, rfl⟩ := Option.map_eq_some_iff.mp taken
    exact removal_moved inv top found rfl
  | destructor left =>
    cases left with
    | nil =>
      simp only [exec, Option.some.injEq] at taken
      subst taken
      have turn : Turn s { pop s i with life := .dead } (some (i, .destructor [])) [] [] :=
        turn_same inv rfl rfl (rounds_pop s i) (List.append_nil _).symm (owed_pop top) (by simp)
      exact ⟨_, _, _, turn, Account.finish rfl rfl rfl rfl rfl⟩
    | cons => cases taken

end Connection

theorem loop_moved {i : Nat} {f : Loop → Loop} (inv : Housed s) (running : s.fault = none)
    (todo : ∀ c ∈ (f (s.loops i)).todo, c ∈ (s.loops i).todo)
    (batch : (f (s.loops i)).phase ≠ .functors → (f (s.loops i)).queue.batch = [])
    (agenda : (f (s.loops i)).agenda = (s.loops i).agenda) : Moved s l (updateLoop s i f) := by
  have balance : ∀ j x, owed (updateLoop s i f) j x = owed s j x := by
    intro j x
    rw [owed_updateLoop]
    split
    · rename_i same
      rw [same, agenda]
      rfl
    · rfl
  have turn : Turn s (updateLoop s i f) none [] [] := turn_loop inv todo batch balance (by simp)
  exact .plain turn ⟨rfl, rfl, rfl⟩ (not_server running) (by simp) (by simp)

theorem gain_moved {i : Nat} {x : Frame} {f : Loop → Loop} (inv : Housed s)
    (running : s.fault = none) (minor : x.vital = false) (placed : Placed s i x)
    (todo : ∀ c ∈ (f (s.loops i)).todo, c ∈ (s.loops i).todo)
    (batch : (f (s.loops i)).phase ≠ .functors → (f (s.loops i)).queue.batch = [])
    (agenda : (f (s.loops i)).agenda.Perm (x :: (s.loops i).agenda)) :
    Moved s l (updateLoop s i f) := by
  have balance : ∀ j y, owed (updateLoop s i f) j y + (none : Option (Nat × Frame)).toList.count (j, y) =
      owed s j y + [(i, x)].count (j, y) := by
    intro j y
    have single : [(i, x)] = [x].map (Prod.mk i) := rfl
    rw [owed_updateLoop, single, count_at]
    by_cases same : j = i
    · subst same
      simp only [if_true, agenda.count_eq, List.count_cons, List.count_nil, owed]
      simp
    · simp [same]
  have on : ∀ j y, (j, y) ∈ [(i, x)] → Placed s j y := by
    intro j y member
    obtain ⟨rfl, rfl⟩ := Prod.mk.inj (List.mem_singleton.mp member)
    exact placed
  refine .plain (turn_loop inv todo batch balance on) ⟨rfl, rfl, rfl⟩ (not_server running) (by simp)
    ?_
  intro j y member
  obtain ⟨rfl, rfl⟩ := Prod.mk.inj (List.mem_singleton.mp member)
  exact minor

section Calls
variable {i c : Nat} {e : Session} {call : Call} {caller : TcpConnection.Caller}
  {v u : TcpConnection.State} {r : Option TcpConnection.Request}

theorem asked_requests (asked : Asked v caller call u r) :
    u.stack = v.stack ∧ u.queue = v.queue ∧
      ∀ q, r = some q → q.functor.api = true ∧ q.frame ≠ .userCode ∧
        (Frame.connection c q.frame).vital = false := by
  cases asked <;> simp [TcpConnection.Request.functor, TcpConnection.Request.frame,
    TcpConnection.Functor.api, Frame.vital]

theorem grown_of_asked {e' : Session} (asked : Asked v caller call u r) (conn : v.conn = e.conn)
    (sound : e.conn.Sound) (name : e'.name_ = e.name_) (loop : e'.loop_ = e.loop_)
    (after : e'.conn = u.conn) : e.Grown e' := by
  refine ⟨name, loop, ?_, ?_⟩
  · rw [after]
    exact TcpConnection.asked_sound asked (conn ▸ sound)
  · intro down
    rw [after]
    have up_or_down : ¬v.conn.alive := by
      rw [conn]
      rintro (up | ending)
      · rw [down] at up
        cases up
      · rw [down] at ending
        cases ending
    cases asked with
    | shutdown up => exact absurd (Or.inl up) up_or_down
    | forceClose alive => exact absurd alive up_or_down
    | forceCloseWithDelay alive => exact absurd alive up_or_down
    | send | startRead | stopRead | refused => exact conn ▸ down

theorem loopCall_turn {e' : Session} (inv : Housed s) (taken : t = loopCall s i c e' call)
    (found : s.sessions[c]? = some e) (home : e.loop_ = i) (started : Started s c)
    (name : e'.name_ = e.name_) (loop : e'.loop_ = e.loop_) (conn : e'.conn = e.conn) :
    ∃ gained, Turn s t none gained [] ∧ ∀ j x, (j, x) ∈ gained → x.vital = false := by
  unfold loopCall at taken
  have there : c < s.sessions.length := (List.getElem?_eq_some_iff.mp found).1
  have asked := TcpConnection.asked (view e' (s.loops i) c) .loop call
  obtain ⟨stack, queue, requests⟩ := asked_requests (c := c) asked
  have same := rounds_absorb s i c e' (TcpConnection.loopCall (view e' (s.loops i) c) call)
  have at_loop : ∀ j, (t.loops j).todo = (s.loops j).todo ∧ (t.loops j).phase = (s.loops j).phase ∧
      (t.loops j).queue.batch = (s.loops j).queue.batch := by
    intro j
    have here := congrFun same j
    rw [taken]
    simpa only [rounds, Prod.mk.injEq] using here
  have left : ∀ x ∈ leftBy c (TcpConnection.loopCall (view e' (s.loops i) c) call),
      x.vital = false ∧ ∃ g, x = .connection c g := by
    intro x member
    have frames : (TcpConnection.loopCall (view e' (s.loops i) c) call).stack =
        ((TcpConnection.checkAndSet (view e' (s.loops i) c) .loop call).2.map
          TcpConnection.Request.frame).toList := by
      simp only [TcpConnection.loopCall, stack]
      exact List.append_nil _
    have nothing : (TcpConnection.loopCall (view e' (s.loops i) c) call).queue.waiting = [] := by
      simp only [TcpConnection.loopCall, queue]
      rfl
    rw [leftBy, nothing, frames, List.map_nil, List.append_nil, List.mem_map] at member
    obtain ⟨g, requested, rfl⟩ := member
    obtain ⟨q, asked_for, rfl⟩ := Option.map_eq_some_iff.mp (Option.mem_toList.mp requested)
    obtain ⟨-, code, minor⟩ := requests q asked_for
    cases q with
    | runInLoop h => exact ⟨minor, _, rfl⟩
    | queueForceClose => exact ⟨minor, _, rfl⟩
  have turn : Turn s t none
      ((leftBy c (TcpConnection.loopCall (view e' (s.loops i) c) call)).map (Prod.mk i)) [] := by
    have sessions : t.sessions = s.sessions.set c
        (e'.absorb (TcpConnection.loopCall (view e' (s.loops i) c) call)) := by
      rw [taken]
      rfl
    refine turn_set inv found sessions
      (grown_of_asked asked conn (inv.sound c e found) name loop rfl) (Or.inl ?_) ?_ ?_ ?_ ?_ ?_ ?_
    · rw [taken]
      exact started
    · intro n d f busy
      rw [taken] at busy
      exact Or.inl busy
    · intro j d member
      rw [← (at_loop j).1]
      exact member
    · intro j
      rw [(at_loop j).2.1, (at_loop j).2.2]
      exact inv.batch j
    · rw [taken]
      exact (List.append_nil _).symm
    · intro j x
      rw [taken]
      exact owed_absorb s i c j e' _ x
    · intro j x member
      obtain ⟨y, inside, pair⟩ := List.mem_map.mp member
      obtain ⟨rfl, rfl⟩ := Prod.mk.inj pair
      obtain ⟨-, g, rfl⟩ := left y inside
      rw [taken]
      exact ⟨⟨_, List.getElem?_set_self there, loop.trans home⟩, Or.inr started⟩
  refine ⟨_, turn, ?_⟩
  intro j x member
  obtain ⟨y, inside, pair⟩ := List.mem_map.mp member
  obtain ⟨rfl, rfl⟩ := Prod.mk.inj pair
  exact (left y inside).1

theorem threadCall_moved {n : Nat} (inv : Housed s) (running : s.fault = none)
    (found : s.sessions[c]? = some e) (started : Started s c) :
    let asked := TcpConnection.checkAndSet (view e (s.loops e.loop_) c) (.other n) call
    Moved s (.threadCall n c call)
      { s with
        sessions := s.sessions.set c (e.absorb asked.1)
        threads := Function.update s.threads n (asked.2.map fun q => (c, q.functor)) } := by
  intro result
  have there : c < s.sessions.length := (List.getElem?_eq_some_iff.mp found).1
  have asked := TcpConnection.asked (view e (s.loops e.loop_) c) (.other n) call
  obtain ⟨-, -, requests⟩ := asked_requests (c := c) asked
  have turn : Turn s
      { s with
        sessions := s.sessions.set c (e.absorb result.1)
        threads := Function.update s.threads n (result.2.map fun q => (c, q.functor)) } none [] [] := by
    refine turn_set inv found rfl (grown_of_asked asked rfl (inv.sound c e found) rfl rfl rfl)
      (Or.inl started) ?_ (fun _ _ member => member) inv.batch (List.append_nil _).symm
      (fun _ _ => rfl) (by simp)
    intro m d f busy
    by_cases same : m = n
    · subst same
      have busy : (result.2.map fun q => (c, q.functor)) = some (d, f) := by simpa using busy
      obtain ⟨q, asked_for, pair⟩ := Option.map_eq_some_iff.mp busy
      obtain ⟨rfl, rfl⟩ := Prod.mk.inj pair
      exact Or.inr ⟨(requests q asked_for).1, started, _, List.getElem?_set_self there⟩
    · exact Or.inl (by simpa [Function.update_of_ne same] using busy)
  exact .plain turn ⟨rfl, rfl, rfl⟩ (not_server running) (by simp) (by simp)

end Calls

section Rounds
variable {i c : Nat} {e : Session}

theorem returned_started {a : Nat × Events} (inv : Housed s) (may : mayReturn s i a = true) :
    Started s a.1 ∧ ∃ e, s.sessions[a.1]? = some e ∧ e.loop_ = i := by
  simp only [mayReturn, Option.any_eq_true, Bool.and_eq_true, decide_eq_true_eq] at may
  obtain ⟨e, found, home, interest, registered, -⟩ := may
  refine ⟨?_, e, found, home⟩
  by_contra unstarted
  have index := (inv.fresh _ e found unstarted).index
  have added := (TcpConnection.slotOf_interest (inv.sound _ e found).synced registered).1
  rw [index] at added
  exact Channel.kNew_ne_kAdded added

theorem setRevents_grown {active : List (Nat × Events)} (sound : e.conn.Sound) :
    e.Grown (setRevents active c e) := by
  unfold setRevents
  split
  · exact ⟨rfl, rfl, ⟨⟨sound.synced.index, sound.synced.slot⟩, sound.valid⟩, id⟩
  · exact .same sound

theorem poll_moved {active : List (Nat × Events)} (inv : Housed s) (running : s.fault = none)
    (polling : (s.loops i).phase = .polling) (may : active.all (mayReturn s i) = true) :
    Moved s (.poll i active)
      (updateLoop { s with sessions := s.sessions.mapIdx (setRevents active) } i fun loop =>
        { loop with
          phase := .handling
          activeChannels_ := active.map Prod.fst
          todo := active.map Prod.fst }) := by
  have returned : ∀ a ∈ active, Started s a.1 ∧ ∃ e, s.sessions[a.1]? = some e ∧ e.loop_ = i := by
    intro a member
    exact returned_started inv (List.all_eq_true.mp may a member)
  have session : ∀ d e, s.sessions[d]? = some e →
      (s.sessions.mapIdx (setRevents active))[d]? = some (setRevents active d e) := by
    intro d e found
    rw [List.getElem?_mapIdx, found]
    rfl
  have idle := inv.batch i (by rw [polling]; simp)
  have turn : Turn s
      (updateLoop { s with sessions := s.sessions.mapIdx (setRevents active) } i fun loop =>
        { loop with
          phase := .handling
          activeChannels_ := active.map Prod.fst
          todo := active.map Prod.fst }) none [] [] := by
    refine ⟨?_, (List.append_nil _).symm, ?_, ?_, (by simp), fun _ _ _ busy => Or.inl busy, ?_, ?_⟩
    · intro j x
      rw [owed_updateLoop]
      split
      · rename_i same
        rw [same]
        rfl
      · rfl
    · intro d e found
      refine ⟨_, session d e found, setRevents_grown (inv.sound d e found), ?_⟩
      intro unstarted
      unfold setRevents
      split
      · rename_i ev there
        obtain ⟨before, after, split, -⟩ := List.lookup_eq_some_iff.mp there
        exact absurd (returned (d, ev) (by rw [split]; simp)).1 unstarted
      · rfl
    · intro d e missing found
      have found : (s.sessions.mapIdx (setRevents active))[d]? = some e := found
      rw [List.getElem?_mapIdx, missing] at found
      cases found
    · intro j d member
      by_cases same : j = i
      · subst same
        simp only [updateLoop, Function.update_self] at member
        obtain ⟨a, inside, rfl⟩ := List.mem_map.mp member
        obtain ⟨started, e, found, home⟩ := returned a inside
        exact Or.inr ⟨started, _, session a.1 e found,
          (setRevents_grown (inv.sound _ e found)).loop.trans home⟩
      · simp only [updateLoop, Function.update_of_ne same] at member
        exact Or.inl member
    · intro j
      by_cases same : j = i
      · subst same
        simp only [updateLoop, Function.update_self]
        exact fun _ => idle
      · simp only [updateLoop, Function.update_of_ne same]
        exact inv.batch j
  exact .plain turn ⟨rfl, rfl, rfl⟩ (not_server running) (by simp) (by simp)

theorem owed_dispatch (s : State) (i c j : Nat) (e : Session) (todo : List Nat) (x : Frame) :
    owed (dispatch s i c e todo) j x =
      owed s j x + ((handleEvent c).map (Prod.mk i)).count (j, x) := by
  rw [count_at]
  unfold owed dispatch note updateLoop
  by_cases same : j = i
  · subst same
    simp only [Function.update_self, Loop.agenda, List.count_append, if_true]
    omega
  · simp [same]

theorem handleEvent_frames {x : Frame} (member : x ∈ handleEvent c) :
    x.vital = false ∧ ∃ f, x = .connection c f := by
  simp only [handleEvent, List.mem_cons, List.not_mem_nil, or_false] at member
  rcases member with rfl | rfl | rfl | rfl | rfl <;> exact ⟨rfl, _, rfl⟩

theorem dispatch_moved {todo : List Nat} (inv : Housed s)
    (ahead : (s.loops i).todo = c :: todo) (found : s.sessions[c]? = some e) :
    Moved s (.dispatch i) (dispatch s i c e todo) := by
  have there : c < s.sessions.length := (List.getElem?_eq_some_iff.mp found).1
  obtain ⟨started, e', found', home⟩ := inv.todo i c (by rw [ahead]; exact List.mem_cons_self)
  rw [found] at found'
  cases found'
  have sound := inv.sound c e found
  refine ⟨none, (handleEvent c).map (Prod.mk i), [.event c], ?_, ?_⟩
  · refine turn_set inv found rfl
      ⟨rfl, rfl, ⟨⟨sound.synced.index, sound.synced.slot⟩, sound.valid⟩, id⟩
      (Or.inl (List.mem_append_left _ started)) (fun _ _ _ busy => Or.inl busy) ?_ ?_ rfl
      (fun j x => owed_dispatch s i c j e todo x) ?_
    · intro j d member
      by_cases same : j = i
      · subst same
        simp only [dispatch, note, updateLoop, Function.update_self] at member
        rw [ahead]
        exact List.mem_cons_of_mem _ member
      · simp only [dispatch, note, updateLoop, Function.update_of_ne same] at member
        exact member
    · intro j
      by_cases same : j = i
      · subst same
        simp only [dispatch, note, updateLoop, Function.update_self]
        exact inv.batch j
      · simp only [dispatch, note, updateLoop, Function.update_of_ne same]
        exact inv.batch j
    · intro j x member
      obtain ⟨y, inside, pair⟩ := List.mem_map.mp member
      obtain ⟨rfl, rfl⟩ := Prod.mk.inj pair
      obtain ⟨-, f, rfl⟩ := handleEvent_frames inside
      exact ⟨⟨_, List.getElem?_set_self there, home⟩, Or.inr (List.mem_append_left _ started)⟩
  · refine Account.event ⟨rfl, rfl, rfl⟩ rfl started ?_
    intro j x member
    obtain ⟨y, inside, pair⟩ := List.mem_map.mp member
    obtain ⟨rfl, rfl⟩ := Prod.mk.inj pair
    exact (handleEvent_frames inside).1

end Rounds

section Server
variable {c : Nat} {e : Session}

theorem accept_moved {setup : TcpConnection.Setup} (inv : Housed s) (alive : s.life = .alive)
    (few : s.server.nextConnId_ < 2 ^ 31 - 1) :
    Moved s (.accept setup) (newConnection
      (updateLoop s baseLoop fun loop => { loop with currentActiveChannel_ := none }) setup) := by
  have alike := alike_current s baseLoop
  have inv := alike_housed alike inv
  generalize turned : (updateLoop s baseLoop fun loop =>
    { loop with currentActiveChannel_ := none }) = u at alike inv
  let name := connName s.server.name_ s.server.ipPort_ s.server.nextConnId_
  let next := s.server.threadPool_.getNextLoop
  let session : Session := ⟨name, next.1, .new setup, 0, 0, []⟩
  let server : Server :=
    { s.server with
      threadPool_ := next.2
      nextConnId_ := s.server.nextConnId_ + 1
      connections_ := s.server.connections_.insert name s.sessions.length }
  have shape : newConnection u setup =
      runInLoop { u with server := server, sessions := s.sessions ++ [session] } baseLoop next.1
        (.connection s.sessions.length .connectEstablished) := by
    subst turned
    rfl
  have here : (s.sessions ++ [session])[s.sessions.length]? = some session := by simp
  have turn : Turn u { u with server := server, sessions := s.sessions ++ [session] } none [] [] := by
    refine ⟨fun _ _ => rfl, (List.append_nil _).symm, ?_, ?_, (by simp), fun _ _ _ busy => Or.inl busy,
      fun _ _ member => Or.inl member, inv.batch⟩
    · intro d f found
      refine ⟨f, ?_, .same (inv.sound d f found), fun _ => rfl⟩
      rw [alike.sessions] at found
      have there := (List.getElem?_eq_some_iff.mp found).1
      exact (List.getElem?_append_left there).trans found
    · intro d f missing found
      rw [alike.sessions] at missing
      have beyond := List.getElem?_eq_none_iff.mp missing
      have found : (s.sessions ++ [session])[d]? = some f := found
      rw [List.getElem?_append_right beyond] at found
      have only : f = session := by
        rw [List.getElem?_singleton] at found
        split at found
        · exact (Option.some.inj found).symm
        · cases found
      subst only
      exact ⟨TcpConnection.sound_init setup, ⟨rfl, rfl, rfl, rfl⟩, by rw [alike.server]⟩
  have placed : Placed { u with server := server, sessions := s.sessions ++ [session] } next.1
      (Functor.connection s.sessions.length .connectEstablished).frame :=
    ⟨⟨session, here, rfl⟩, Or.inl (Or.inl rfl)⟩
  rw [shape]
  refine ⟨_, _, _, (turn.run placed).of_alike alike, ?_⟩
  subst turned
  unfold runInLoop
  split <;> exact Account.accept alive few rfl rfl rfl rfl rfl

theorem destroy_moved (inv : Housed s) (alive : s.life = .alive) :
    Moved s .destroy (enter { s with life := .destructing } baseLoop
      [.destructor (s.server.connections_.entries.map Sigma.snd)]) := by
  refine ⟨none, _, [], turn_same inv rfl rfl ?_ (List.append_nil _).symm ?_ ?_,
    Account.begin rfl alive rfl rfl rfl rfl⟩
  · exact rounds_enter { s with life := .destructing } baseLoop _
  · intro j x
    exact owed_enter { s with life := .destructing } baseLoop j _ x
  · intro j x member
    obtain ⟨rfl, rfl⟩ := Prod.mk.inj (List.mem_singleton.mp member)
    rfl

theorem tearDown_moved {left : List Nat} {rest : List Frame} (inv : Housed s)
    (top : (s.loops baseLoop).stack = .destructor left :: rest) (found : s.sessions[c]? = some e)
    (member : c ∈ left) : Moved s (.tearDown c) (tearDown s c e left rest) := by
  have balance : ∀ j x,
      owed (updateLoop s baseLoop fun loop => { loop with stack := .destructor (left.erase c) :: rest }) j x +
        (some (baseLoop, Frame.destructor left)).toList.count (j, x) =
          owed s j x + [(baseLoop, Frame.destructor (left.erase c))].count (j, x) := by
    intro j x
    have off : (some (baseLoop, Frame.destructor left)).toList =
        [Frame.destructor left].map (Prod.mk baseLoop) := rfl
    have on : [(baseLoop, Frame.destructor (left.erase c))] =
        [Frame.destructor (left.erase c)].map (Prod.mk baseLoop) := rfl
    rw [owed_updateLoop, off, on, count_at, count_at]
    by_cases same : j = baseLoop
    · subst same
      simp only [if_true, owed, Loop.agenda, top, List.cons_append, List.count_cons, List.count_nil]
      omega
    · simp [same]
  have turn : Turn s
      (updateLoop s baseLoop fun loop => { loop with stack := .destructor (left.erase c) :: rest })
      (some (baseLoop, .destructor left)) [(baseLoop, .destructor (left.erase c))] [] := by
    refine turn_loop inv (fun _ inside => inside) (inv.batch baseLoop) balance ?_
    intro j x added
    obtain ⟨rfl, rfl⟩ := Prod.mk.inj (List.mem_singleton.mp added)
    rfl
  have placed : Placed
      (updateLoop s baseLoop fun loop => { loop with stack := .destructor (left.erase c) :: rest })
      e.loop_ (Functor.connection c .connectDestroyed).frame :=
    ⟨⟨e, found, rfl⟩, Or.inl (Or.inr (Or.inl rfl))⟩
  refine ⟨_, _, _, (turn.run placed).noted [.tornDown c], ?_⟩
  unfold tearDown runInLoop
  split <;> exact Account.tearDown ⟨rfl, rfl, rfl⟩ rfl found member rfl

theorem api_minor {f : TcpConnection.Functor} (api : f.api = true) :
    (Frame.connection c (.run f)).vital = false := by
  cases f <;> first | rfl | cases api

theorem push_moved {n : Nat} {f : TcpConnection.Functor} (inv : Housed s) (running : s.fault = none)
    (busy : s.threads n = some (c, f)) (found : s.sessions[c]? = some e) :
    Moved s (.threadPush n)
      (queueInLoop { s with threads := Function.update s.threads n none } e.loop_
        (.connection c f)) := by
  obtain ⟨api, started, -⟩ := inv.slots n c f busy
  have turn : Turn s { s with threads := Function.update s.threads n none } none [] [] := by
    refine ⟨fun _ _ => rfl, (List.append_nil _).symm, ?_, ?_, (by simp), ?_,
      fun _ _ member => Or.inl member, inv.batch⟩
    · intro d g found
      exact ⟨g, found, .same (inv.sound d g found), fun _ => rfl⟩
    · intro d g missing found
      have found : s.sessions[d]? = some g := found
      rw [missing] at found
      cases found
    · intro m d g there
      by_cases same : m = n
      · subst same
        simp at there
      · exact Or.inl (by simpa [Function.update_of_ne same] using there)
  have placed : Placed { s with threads := Function.update s.threads n none } e.loop_
      (Functor.connection c f).frame := ⟨⟨e, found, rfl⟩, Or.inr started⟩
  refine .plain (turn.queue placed) ⟨rfl, rfl, rfl⟩ (not_server running) (by simp) ?_
  intro j x member
  obtain ⟨rfl, rfl⟩ := Prod.mk.inj (List.mem_singleton.mp member)
  exact api_minor api

theorem ret_moved {i : Nat} {rest : List Frame} (inv : Housed s) (running : s.fault = none)
    (top : (s.loops i).stack = .userCode :: rest) : Moved s (.ret i) (pop s i) := by
  have turn : Turn s (pop s i) (some (i, .userCode)) [] [] :=
    turn_same inv rfl rfl (rounds_pop s i) (List.append_nil _).symm (owed_pop top) (by simp)
  refine .plain turn ⟨rfl, rfl, rfl⟩ (not_server running) ?_ (by simp)
  intro j x pair
  cases pair
  rfl

end Server

theorem moved (inv : Housed s) (taken : step s l = some t) :
    s.fault = none ∧ Moved s l t := by
  have running : s.fault = none := by
    cases failed : s.fault with
    | none => rfl
    | some e => simp [step, failed] at taken
  have unfailed : ¬s.fault.isSome = true := by simp [running]
  have sane : ∀ e, s.fault ≠ some (.server e) := by
    intro e
    rw [running]
    simp
  have known : ∀ c (e : Session), s.sessions[c]? = some e → (e.told ≠ [] ∨ 0 < e.timers) →
      Started s c := by
    intro c e found mark
    by_contra unstarted
    have fresh := inv.fresh c e found unstarted
    rcases mark with told | timers
    · exact told fresh.told
    · rw [fresh.timers] at timers
      cases timers
  refine ⟨running, ?_⟩
  cases l with
  | accept setup =>
    simp only [step, if_neg unfailed] at taken
    split at taken
    · rename_i ready
      cases taken
      exact accept_moved inv ready.2.2.1 ready.2.2.2
    · cases taken
  | destroy =>
    simp only [step, if_neg unfailed] at taken
    split at taken
    · split at taken
      · cases taken
        exact destroy_moved inv ‹_›
      · cases taken
    · cases taken
  | tearDown c =>
    simp only [step, if_neg unfailed] at taken
    split at taken
    · rename_i left rest session top found
      split at taken
      · cases taken
        exact tearDown_moved inv top found ‹_›
      · cases taken
    · cases taken
  | threadCall n c call =>
    simp only [step, if_neg unfailed] at taken
    split at taken
    · rename_i session idle found
      split at taken
      · cases taken
        exact threadCall_moved inv running found (known c session found (Or.inl ‹_›))
      · cases taken
    · cases taken
  | threadPush n =>
    simp only [step, if_neg unfailed] at taken
    split at taken
    · cases taken
    · rename_i c f busy
      obtain ⟨session, found, rfl⟩ := Option.map_eq_some_iff.mp taken
      exact push_moved inv running busy found
  | queueTask i =>
    simp only [step, if_neg unfailed] at taken
    cases taken
    refine gain_moved (x := .userCode) inv running rfl trivial (fun _ inside => inside) (inv.batch i) ?_
    simp only [Loop.agenda, Batch.waiting_push, List.map_append]
    rw [← List.append_assoc]
    exact List.perm_append_singleton _ _
  | poll i active =>
    simp only [step, if_neg unfailed] at taken
    split at taken
    · rename_i ready
      cases taken
      exact poll_moved inv running ready.1 ready.2.2.2
    · cases taken
  | otherCode i =>
    simp only [step, if_neg unfailed] at taken
    split at taken
    · rename_i ready
      cases taken
      refine gain_moved (x := .userCode) inv running rfl trivial (fun _ inside => inside) (inv.batch i) ?_
      simp [Loop.agenda, ready.2]
    · cases taken
  | dispatch i =>
    simp only [step, if_neg unfailed] at taken
    split at taken
    · cases taken
    · rename_i c todo ahead
      split at taken
      · obtain ⟨session, found, rfl⟩ := Option.map_eq_some_iff.mp taken
        exact dispatch_moved inv ahead found
      · cases taken
  | fireTimer i c =>
    simp only [step, if_neg unfailed] at taken
    split at taken
    · cases taken
    · rename_i session found
      split at taken
      · rename_i ready
        cases taken
        have alike := alike_current s i
        obtain ⟨gained, turn, on⟩ := loopCall_turn (alike_housed alike inv)
          (Eq.refl (loopCall _ i c { session with timers := session.timers - 1 } .forceClose))
          found ready.2.2.1 (known c session found (Or.inr ready.2.2.2)) rfl rfl rfl
        exact .plain (turn.of_alike alike) ⟨rfl, rfl, rfl⟩ sane (by simp) on
      · cases taken
  | endHandling i =>
    simp only [step, if_neg unfailed] at taken
    split at taken
    · rename_i ready
      cases taken
      have idle := inv.batch i (by rw [ready.1]; simp)
      refine loop_moved inv running (fun _ inside => inside) (fun other => absurd rfl other) ?_
      simp [Loop.agenda, Batch.waiting_swap idle]
    · cases taken
  | nextFunctor i =>
    simp only [step, if_neg unfailed] at taken
    split at taken
    · rename_i ready
      obtain ⟨⟨f, q⟩, next, rfl⟩ := Option.map_eq_some_iff.mp taken
      refine loop_moved inv running (fun _ inside => inside) (fun other => absurd ready.1 other) ?_
      simp [Loop.agenda, ready.2, Batch.waiting_next next]
    · cases taken
  | endFunctors i =>
    simp only [step, if_neg unfailed] at taken
    split at taken
    · rename_i ready
      cases taken
      exact loop_moved inv running (fun _ inside => inside) (fun _ => ready.2.2) rfl
    · cases taken
  | call i c call =>
    simp only [step, if_neg unfailed] at taken
    split at taken
    · rename_i rest session top found
      split at taken
      · rename_i ready
        cases taken
        obtain ⟨gained, turn, on⟩ := loopCall_turn inv (Eq.refl (loopCall s i c session call))
          found ready.1 (known c session found (Or.inl ready.2)) rfl rfl rfl
        exact .plain turn ⟨rfl, rfl, rfl⟩ sane (by simp) on
      · cases taken
    · cases taken
  | ret i =>
    simp only [step, if_neg unfailed] at taken
    split at taken
    · rename_i rest top
      cases taken
      exact ret_moved inv running top
    · cases taken
  | exec i w r =>
    simp only [step, if_neg unfailed] at taken
    split at taken
    · cases taken
    · rename_i frame rest top
      exact exec_moved inv running top taken

end TcpServer
end Muduo
