import Mathlib.Data.List.Count
import Muduo.Net.TcpConnectionFlow
import Muduo.Net.TcpServer

/-!
The bookkeeping of a step of the server machine. `owed` counts the frames that a
loop has still to execute, on its stack or in its queue; `Housed` says that every
frame, functor and event belongs to the loop that must handle it, and to a
connection that may have it. `Turn` says which frame a step takes off and which
it adds, what it notes in the journal, and that sessions stay in good order; a
turn keeps the house.
-/
namespace Muduo
open Lib
namespace TcpServer
open TcpConnection (Phase)
variable {s t u : State} {i c : Nat} {x : Frame}

def Loop.agenda (loop : Loop) : List Frame := loop.stack ++ loop.queue.waiting.map Functor.frame

def owed (s : State) (i : Nat) (frame : Frame) : Nat := (s.loops i).agenda.count frame

theorem owed_updateLoop (s : State) (i j : Nat) (f : Loop → Loop) (x : Frame) :
    owed (updateLoop s i f) j x = if j = i then (f (s.loops i)).agenda.count x else owed s j x := by
  unfold owed updateLoop
  by_cases same : j = i
  · subst same
    simp
  · simp [same]

@[simp] theorem owed_init (setup : Setup) (i : Nat) (x : Frame) : owed (init setup) i x = 0 := by
  simp [owed, init, Loop.new, Loop.agenda]

theorem count_at (i j : Nat) (frames : List Frame) (x : Frame) :
    (frames.map (Prod.mk i)).count (j, x) = if j = i then frames.count x else 0 := by
  by_cases same : j = i
  · subst same
    rw [if_pos rfl]
    exact List.count_map_of_injective frames _ (Prod.mk_right_injective j) x
  · rw [if_neg same]
    refine List.count_eq_zero.mpr ?_
    intro member
    obtain ⟨_, -, equal⟩ := List.mem_map.mp member
    exact same (Prod.ext_iff.mp equal).1.symm

theorem owed_enter (s : State) (i j : Nat) (frames : List Frame) (x : Frame) :
    owed (enter s i frames) j x = owed s j x + (frames.map (Prod.mk i)).count (j, x) := by
  rw [enter, owed_updateLoop, count_at]
  by_cases same : j = i
  · subst same
    simp only [if_true, owed, Loop.agenda, List.count_append]
    omega
  · simp [same]

theorem owed_queueInLoop (s : State) (i j : Nat) (f : Functor) (x : Frame) :
    owed (queueInLoop s i f) j x = owed s j x + [(i, f.frame)].count (j, x) := by
  have single : [(i, f.frame)] = [f.frame].map (Prod.mk i) := rfl
  rw [queueInLoop, owed_updateLoop, single, count_at]
  by_cases same : j = i
  · subst same
    simp only [if_true, owed, Loop.agenda, Batch.waiting_push, List.map_append, List.map_cons,
      List.map_nil, List.count_append]
    omega
  · simp [same]

theorem owed_pop {frame : Frame} {rest : List Frame} (top : (s.loops i).stack = frame :: rest)
    (j : Nat) (x : Frame) :
    owed (pop s i) j x + [(i, frame)].count (j, x) = owed s j x := by
  have single : [(i, frame)] = [frame].map (Prod.mk i) := rfl
  rw [pop, owed_updateLoop, single, count_at]
  by_cases same : j = i
  · subst same
    simp only [if_true, owed, Loop.agenda, top, List.tail_cons, List.count_append,
      List.count_cons, List.count_nil]
    omega
  · simp [same]

def leftBy (c : Nat) (t : TcpConnection.State) : List Frame :=
  t.stack.map (lift c) ++ t.queue.waiting.map fun f => .connection c (.run f)

theorem owed_absorb (s : State) (i c j : Nat) (session : Session) (u : TcpConnection.State)
    (x : Frame) :
    owed (absorb s i c session u) j x =
      owed s j x + ((leftBy c u).map (Prod.mk i)).count (j, x) := by
  rw [absorb, owed_updateLoop, count_at]
  by_cases same : j = i
  · subst same
    have frames : Functor.frame ∘ Functor.connection c = fun f => Frame.connection c (.run f) := rfl
    simp only [if_true, owed, Loop.agenda, leftBy, Batch.waiting_foldl_push, List.map_append,
      List.map_map, frames, List.count_append]
    omega
  · simp only [same, if_false, Nat.add_zero]
    rfl

def Started (s : State) (c : Nat) : Prop := .established c ∈ s.journal

def Early (f : TcpConnection.Frame) : Prop :=
  f = .run .connectEstablished ∨ f = .run .connectDestroyed ∨ f = .removeChannel

def Placed (s : State) (i : Nat) : Frame → Prop
  | .userCode => True
  | .connection c f => (∃ e, s.sessions[c]? = some e ∧ e.loop_ = i) ∧ (Early f ∨ Started s c)
  | .removeConnectionInLoop c => i = baseLoop ∧ Started s c ∧ ∃ e, s.sessions[c]? = some e
  | .destructor _ => i = baseLoop

/-- A connection that nothing has touched since its constructor. -/
structure Session.Fresh (e : Session) : Prop where
  state : e.conn.state_ = .kConnecting
  index : e.conn.channel_.index_ = EPollPoller.kNew
  told : e.told = []
  timers : e.timers = 0

structure Housed (s : State) : Prop where
  sound : ∀ (c : Nat) (e : Session), s.sessions[c]? = some e → e.conn.Sound
  fresh : ∀ (c : Nat) (e : Session), s.sessions[c]? = some e → ¬Started s c → e.Fresh
  placed : ∀ i x, 0 < owed s i x → Placed s i x
  slots : ∀ n c f, s.threads n = some (c, f) →
    f.api = true ∧ Started s c ∧ ∃ e, s.sessions[c]? = some e
  todo : ∀ i c, c ∈ (s.loops i).todo → Started s c ∧ ∃ e, s.sessions[c]? = some e ∧ e.loop_ = i
  batch : ∀ i, (s.loops i).phase ≠ .functors → (s.loops i).queue.batch = []

theorem housed_init (setup : Setup) : Housed (init setup) := by
  constructor
  case placed =>
    intro i x due
    rw [owed_init] at due
    cases due
  all_goals simp [init, Loop.new, Batch.empty]

structure Session.Grown (e e' : Session) : Prop where
  name : e'.name_ = e.name_
  loop : e'.loop_ = e.loop_
  sound : e'.conn.Sound
  down : e.conn.state_ = .kDisconnected → e'.conn.state_ = .kDisconnected

structure Turn (s t : State) (lost : Option (Nat × Frame)) (gained : List (Nat × Frame))
    (notes : List Moment) : Prop where
  owed : ∀ i x, owed t i x + lost.toList.count (i, x) = owed s i x + gained.count (i, x)
  journal : t.journal = s.journal ++ notes
  old : ∀ (c : Nat) (e : Session), s.sessions[c]? = some e →
    ∃ e', t.sessions[c]? = some e' ∧ e.Grown e' ∧ (¬Started t c → e' = e)
  new : ∀ (c : Nat) (e : Session), s.sessions[c]? = none → t.sessions[c]? = some e →
    e.conn.Sound ∧ e.Fresh ∧ t.server.nextConnId_ = s.server.nextConnId_ + 1
  placed : ∀ i x, (i, x) ∈ gained → Placed t i x
  slots : ∀ n c f, t.threads n = some (c, f) → s.threads n = some (c, f) ∨
    (f.api = true ∧ Started t c ∧ ∃ e, t.sessions[c]? = some e)
  todo : ∀ i c, c ∈ (t.loops i).todo → c ∈ (s.loops i).todo ∨
    (Started t c ∧ ∃ e, t.sessions[c]? = some e ∧ e.loop_ = i)
  batch : ∀ i, (t.loops i).phase ≠ .functors → (t.loops i).queue.batch = []

variable {lost : Option (Nat × Frame)} {gained : List (Nat × Frame)} {notes : List Moment}

theorem Turn.started (turn : Turn s t lost gained notes) (started : Started s c) :
    Started t c := by
  unfold Started
  rw [turn.journal]
  exact List.mem_append_left _ started

theorem Turn.session (turn : Turn s t lost gained notes)
    (there : ∃ e, s.sessions[c]? = some e ∧ e.loop_ = i) :
    ∃ e, t.sessions[c]? = some e ∧ e.loop_ = i := by
  obtain ⟨e, found, loop⟩ := there
  obtain ⟨e', found', grown, -⟩ := turn.old c e found
  exact ⟨e', found', grown.loop.trans loop⟩

theorem Turn.known (turn : Turn s t lost gained notes) (there : ∃ e, s.sessions[c]? = some e) :
    ∃ e, t.sessions[c]? = some e := by
  obtain ⟨e, found⟩ := there
  obtain ⟨e', found', -⟩ := turn.old c e found
  exact ⟨e', found'⟩

theorem Turn.stays_placed (turn : Turn s t lost gained notes) (placed : Placed s i x) :
    Placed t i x := by
  cases x with
  | userCode => trivial
  | connection c f => exact ⟨turn.session placed.1, placed.2.imp_right turn.started⟩
  | removeConnectionInLoop c =>
    exact ⟨placed.1, turn.started placed.2.1, turn.known placed.2.2⟩
  | destructor left => exact placed

theorem Turn.owed_before (turn : Turn s t lost gained notes) (due : 0 < TcpServer.owed t i x) :
    0 < TcpServer.owed s i x ∨ (i, x) ∈ gained := by
  have balance := turn.owed i x
  by_cases added : (i, x) ∈ gained
  · exact Or.inr added
  · rw [List.count_eq_zero.mpr added] at balance
    exact Or.inl (by omega)

theorem housed_turn (turn : Turn s t lost gained notes) (inv : Housed s) : Housed t := by
  have session_of : ∀ (c : Nat) (e' : Session), t.sessions[c]? = some e' →
      (∃ e, s.sessions[c]? = some e ∧ e.Grown e' ∧ (¬Started t c → e' = e)) ∨
        (e'.conn.Sound ∧ e'.Fresh) := by
    intro c e' found'
    cases found : s.sessions[c]? with
    | none =>
      obtain ⟨sound, fresh, -⟩ := turn.new c e' found found'
      exact Or.inr ⟨sound, fresh⟩
    | some e =>
      obtain ⟨e'', same, grown⟩ := turn.old c e found
      rw [found'] at same
      cases same
      exact Or.inl ⟨e, rfl, grown⟩
  constructor
  · intro c e' found'
    rcases session_of c e' found' with ⟨e, -, grown, -⟩ | ⟨sound, -⟩
    · exact grown.sound
    · exact sound
  · intro c e' found' unstarted
    rcases session_of c e' found' with ⟨e, found, -, same⟩ | ⟨-, fresh⟩
    · rw [same unstarted]
      exact inv.fresh c e found fun started => unstarted (turn.started started)
    · exact fresh
  · intro i x due
    rcases turn.owed_before due with old | new
    · exact turn.stays_placed (inv.placed i x old)
    · exact turn.placed i x new
  · intro n c f busy
    rcases turn.slots n c f busy with old | new
    · obtain ⟨api, started, there⟩ := inv.slots n c f old
      exact ⟨api, turn.started started, turn.known there⟩
    · exact new
  · intro i c member
    rcases turn.todo i c member with old | new
    · obtain ⟨started, there⟩ := inv.todo i c old
      exact ⟨turn.started started, turn.session there⟩
    · exact new
  · exact turn.batch

def rounds (s : State) (i : Nat) : List Nat × Phase × List Functor :=
  ((s.loops i).todo, (s.loops i).phase, (s.loops i).queue.batch)

theorem rounds_updateLoop (s : State) (i : Nat) {f : Loop → Loop}
    (todo : (f (s.loops i)).todo = (s.loops i).todo)
    (phase : (f (s.loops i)).phase = (s.loops i).phase)
    (batch : (f (s.loops i)).queue.batch = (s.loops i).queue.batch) :
    rounds (updateLoop s i f) = rounds s := by
  funext j
  unfold rounds updateLoop
  by_cases same : j = i
  · subst same
    simp [todo, phase, batch]
  · simp [same]

theorem rounds_pop (s : State) (i : Nat) : rounds (pop s i) = rounds s :=
  rounds_updateLoop s i rfl rfl rfl

theorem rounds_enter (s : State) (i : Nat) (frames : List Frame) :
    rounds (enter s i frames) = rounds s :=
  rounds_updateLoop s i rfl rfl rfl

theorem rounds_queueInLoop (s : State) (i : Nat) (f : Functor) :
    rounds (queueInLoop s i f) = rounds s :=
  rounds_updateLoop s i rfl rfl rfl

theorem rounds_absorb (s : State) (i c : Nat) (session : Session) (u : TcpConnection.State) :
    rounds (absorb s i c session u) = rounds s :=
  rounds_updateLoop _ i rfl rfl (Batch.batch_foldl_push _ _)

theorem Session.Grown.same {e : Session} (sound : e.conn.Sound) : e.Grown e :=
  ⟨rfl, rfl, sound, id⟩

theorem turn_same (inv : Housed s) (sessions : t.sessions = s.sessions)
    (threads : t.threads = s.threads) (same : rounds t = rounds s)
    (journal : t.journal = s.journal ++ notes)
    (balance : ∀ i x, owed t i x + lost.toList.count (i, x) = owed s i x + gained.count (i, x))
    (placed : ∀ i x, (i, x) ∈ gained → Placed t i x) : Turn s t lost gained notes := by
  have at_loop : ∀ i, (t.loops i).todo = (s.loops i).todo ∧
      (t.loops i).phase = (s.loops i).phase ∧
      (t.loops i).queue.batch = (s.loops i).queue.batch := by
    intro i
    have here := congrFun same i
    simpa only [rounds, Prod.mk.injEq] using here
  refine ⟨balance, journal, ?_, ?_, placed, ?_, ?_, ?_⟩
  · intro c e found
    exact ⟨e, by rw [sessions]; exact found, .same (inv.sound c e found), fun _ => rfl⟩
  · intro c e missing found
    rw [sessions, missing] at found
    cases found
  · intro n c f busy
    exact Or.inl (by rw [← threads]; exact busy)
  · intro i c member
    exact Or.inl (by rw [← (at_loop i).1]; exact member)
  · intro i
    rw [(at_loop i).2.1, (at_loop i).2.2]
    exact inv.batch i

theorem turn_set {e e' : Session} (inv : Housed s) (found : s.sessions[c]? = some e)
    (sessions : t.sessions = s.sessions.set c e') (grown : e.Grown e')
    (started : Started t c ∨ e' = e)
    (slots : ∀ n d f, t.threads n = some (d, f) → s.threads n = some (d, f) ∨
      (f.api = true ∧ Started t d ∧ ∃ e, t.sessions[d]? = some e))
    (todo : ∀ i d, d ∈ (t.loops i).todo → d ∈ (s.loops i).todo)
    (batch : ∀ i, (t.loops i).phase ≠ .functors → (t.loops i).queue.batch = [])
    (journal : t.journal = s.journal ++ notes)
    (balance : ∀ i x, owed t i x + lost.toList.count (i, x) = owed s i x + gained.count (i, x))
    (placed : ∀ i x, (i, x) ∈ gained → Placed t i x) : Turn s t lost gained notes := by
  have there : c < s.sessions.length := (List.getElem?_eq_some_iff.mp found).1
  refine ⟨balance, journal, ?_, ?_, placed, slots, fun i d member => Or.inl (todo i d member), batch⟩
  · intro d f found'
    rw [sessions]
    by_cases same : c = d
    · subst same
      rw [found] at found'
      cases found'
      refine ⟨e', List.getElem?_set_self there, grown, ?_⟩
      intro unstarted
      exact started.resolve_left unstarted
    · refine ⟨f, ?_, .same (inv.sound d f found'), fun _ => rfl⟩
      rw [List.getElem?_set_ne same]
      exact found'
  · intro d f missing found'
    rw [sessions, List.getElem?_set] at found'
    split at found'
    · rename_i same
      subst same
      rw [found] at missing
      cases missing
    · rw [missing] at found'
      cases found'

theorem Turn.more {added : List (Nat × Frame)} (turn : Turn s t lost gained notes)
    (server : u.server = t.server) (sessions : u.sessions = t.sessions)
    (threads : u.threads = t.threads) (journal : u.journal = t.journal) (same : rounds u = rounds t)
    (balance : ∀ i x, TcpServer.owed u i x = TcpServer.owed t i x + added.count (i, x))
    (placed : ∀ i x, (i, x) ∈ added → Placed t i x) : Turn s u lost (gained ++ added) notes := by
  have at_loop : ∀ i, (u.loops i).todo = (t.loops i).todo ∧ (u.loops i).phase = (t.loops i).phase ∧
      (u.loops i).queue.batch = (t.loops i).queue.batch := by
    intro i
    have here := congrFun same i
    simpa only [rounds, Prod.mk.injEq] using here
  have started : ∀ c, Started u c ↔ Started t c := by
    intro c
    unfold Started
    rw [journal]
  have kept : ∀ i x, Placed t i x → Placed u i x := by
    intro i x placed
    cases x with
    | userCode => trivial
    | connection c g | removeConnectionInLoop c =>
      simp only [Placed, sessions, started] at placed ⊢
      exact placed
    | destructor left => exact placed
  constructor
  · intro i x
    have before := turn.owed i x
    rw [balance, List.count_append]
    omega
  · rw [journal]
    exact turn.journal
  · intro c e found
    simp only [sessions, started]
    exact turn.old c e found
  · intro c e
    rw [sessions, server]
    exact turn.new c e
  · intro i x member
    rcases List.mem_append.mp member with old | new
    · exact kept i x (turn.placed i x old)
    · exact kept i x (placed i x new)
  · intro n c g
    simp only [threads, sessions, started]
    exact turn.slots n c g
  · intro i c
    rw [(at_loop i).1]
    simp only [sessions, started]
    exact turn.todo i c
  · intro i
    rw [(at_loop i).2.1, (at_loop i).2.2]
    exact turn.batch i

theorem placed_singleton (placed : Placed s i x) :
    ∀ j y, (j, y) ∈ [(i, x)] → Placed s j y := by
  intro j y member
  obtain ⟨rfl, rfl⟩ := Prod.mk.inj (List.mem_singleton.mp member)
  exact placed

theorem Turn.queue {f : Functor} (turn : Turn s t lost gained notes) (placed : Placed t i f.frame) :
    Turn s (queueInLoop t i f) lost (gained ++ [(i, f.frame)]) notes :=
  turn.more rfl rfl rfl rfl (rounds_queueInLoop t i f) (fun j x => owed_queueInLoop t i j f x)
    (placed_singleton placed)

theorem Turn.run {here : Nat} {f : Functor} (turn : Turn s t lost gained notes)
    (placed : Placed t i f.frame) :
    Turn s (runInLoop t here i f) lost (gained ++ [(i, f.frame)]) notes := by
  unfold runInLoop
  split
  · exact turn.more rfl rfl rfl rfl (rounds_enter t i _) (fun j x => owed_enter t i j _ x)
      (placed_singleton placed)
  · exact turn.queue placed

theorem Turn.noted (turn : Turn s t lost gained notes) (moments : List Moment) :
    Turn s (note t moments) lost gained (notes ++ moments) := by
  have started : ∀ c, Started t c → Started (note t moments) c :=
    fun c before => List.mem_append_left _ before
  constructor
  · exact turn.owed
  · simp [note, turn.journal]
  · intro c e found
    obtain ⟨e', found', grown, same⟩ := turn.old c e found
    exact ⟨e', found', grown, fun unstarted => same fun before => unstarted (started c before)⟩
  · exact turn.new
  · intro i x member
    have placed := turn.placed i x member
    cases x with
    | userCode => trivial
    | connection c f => exact ⟨placed.1, placed.2.imp_right (started c)⟩
    | removeConnectionInLoop c => exact ⟨placed.1, started c placed.2.1, placed.2.2⟩
    | destructor left => exact placed
  · intro n c f busy
    exact (turn.slots n c f busy).imp_right fun ⟨api, before, there⟩ => ⟨api, started c before, there⟩
  · intro i c member
    exact (turn.todo i c member).imp_right fun ⟨before, there⟩ => ⟨started c before, there⟩
  · exact turn.batch

theorem owed_top {frame : Frame} {rest : List Frame} (top : (s.loops i).stack = frame :: rest) :
    0 < owed s i frame := by
  unfold owed Loop.agenda
  rw [top]
  simp

structure Alike (s u : State) : Prop where
  server : u.server = s.server
  sessions : u.sessions = s.sessions
  threads : u.threads = s.threads
  journal : u.journal = s.journal
  rounds : rounds u = rounds s
  owed : ∀ i x, owed u i x = owed s i x

theorem alike_housed (alike : Alike s u) (inv : Housed s) : Housed u := by
  have turn : Turn s u none [] [] :=
    turn_same inv alike.sessions alike.threads alike.rounds
      (by rw [alike.journal, List.append_nil]) alike.owed (by simp)
  exact housed_turn turn inv

theorem alike_current (s : State) (i : Nat) :
    Alike s (updateLoop s i fun loop => { loop with currentActiveChannel_ := none }) := by
  refine ⟨rfl, rfl, rfl, rfl, rounds_updateLoop s i rfl rfl rfl, ?_⟩
  intro j x
  rw [owed_updateLoop]
  split
  · rename_i same
    rw [same]
    rfl
  · rfl

theorem Turn.of_alike (alike : Alike s u) (turn : Turn u t lost gained notes) :
    Turn s t lost gained notes := by
  obtain ⟨balance, journal, old, new, placed, slots, todo, batch⟩ := turn
  refine ⟨?_, ?_, ?_, ?_, placed, ?_, ?_, batch⟩
  · intro i x
    rw [← alike.owed i x]
    exact balance i x
  · rw [← alike.journal]
    exact journal
  · rw [← alike.sessions]
    exact old
  · rw [← alike.sessions, ← alike.server]
    exact new
  · rw [← alike.threads]
    exact slots
  · intro i c member
    have same : (u.loops i).todo = (s.loops i).todo := (Prod.mk.inj (congrFun alike.rounds i)).1
    rw [← same]
    exact todo i c member

theorem turn_loop {f : Loop → Loop} (inv : Housed s)
    (todo : ∀ c ∈ (f (s.loops i)).todo, c ∈ (s.loops i).todo)
    (batch : (f (s.loops i)).phase ≠ .functors → (f (s.loops i)).queue.batch = [])
    (balance : ∀ j x, owed (updateLoop s i f) j x + lost.toList.count (j, x) =
      owed s j x + gained.count (j, x)) (placed : ∀ j x, (j, x) ∈ gained → Placed s j x) :
    Turn s (updateLoop s i f) lost gained [] := by
  have elsewhere : ∀ j, j ≠ i → (updateLoop s i f).loops j = s.loops j := by
    intro j other
    exact Function.update_of_ne other _ _
  have here : (updateLoop s i f).loops i = f (s.loops i) := Function.update_self _ _ _
  refine ⟨balance, (List.append_nil _).symm, ?_, ?_, placed, fun _ _ _ busy => Or.inl busy, ?_, ?_⟩
  · intro c e found
    exact ⟨e, found, .same (inv.sound c e found), fun _ => rfl⟩
  · intro c e missing found
    have found : s.sessions[c]? = some e := found
    rw [missing] at found
    cases found
  · intro j c member
    by_cases same : j = i
    · subst same
      rw [here] at member
      exact Or.inl (todo c member)
    · rw [elsewhere j same] at member
      exact Or.inl member
  · intro j
    by_cases same : j = i
    · subst same
      rw [here]
      exact batch
    · rw [elsewhere j same]
      exact inv.batch j

end TcpServer
end Muduo
