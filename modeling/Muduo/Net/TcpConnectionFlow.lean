import Muduo.Net.TcpConnectionSteps

/-!
How the loop thread moves through its frames, and the accounts of one
connection's life that hold in every run whatsoever: which functors wait for it,
what connectionCallback_ and closeCallback_ have been told, and that
connectDestroyed is run once. `Flow` is about frames and phases only, `Ledger`
about the connection. Assertions may still fail in these runs.
-/
namespace Muduo
open Lib
namespace TcpConnection
variable {s t : State} {c : Call} {frame : Frame} {f : Functor} {l : Label}
  {pushed rest : List Frame} {r : Option Request} {caller : Caller}

/-- Frames that may lie below others; the rest is only ever at the top. -/
def Frame.resting : Frame → Bool
  | .userCode | .errorTest | .readTest | .writeTest | .eventDone => true
  | .closeCallback | .removeChannel => true
  | _ => false

def Functor.api : Functor → Bool
  | .sendInLoop _ | .shutdownInLoop | .forceCloseInLoop | .addTimerInLoop => true
  | .startReadInLoop | .stopReadInLoop => true
  | _ => false

structure Flow (s : State) : Prop where
  tail : ∀ frame ∈ s.stack.tail, frame.resting = true
  single : s.stack.count .readTest ≤ 1
  api : ∀ n f, s.threads n = some f → f.api = true
  batch : s.phase ≠ .functors → s.queue.batch = []
  forced : .run .forceCloseInLoop ∈ s.stack → s.phase = .functors
  current : s.current = true → s.phase = .handling
  dispatched : .readTest ∈ s.stack ∨ .hangUpTest ∈ s.stack → s.current = true
  todo : s.todo = true → s.phase = .handling ∧ s.active = true ∧ s.current = false

theorem flow_init (setup : Setup) : Flow (init setup) := by
  constructor <;> simp [init, Batch.empty]

/-- What the loop thread does at one point: frames are put on what lies below, and
    neither the phase nor the marks of the dispatch change. -/
structure Executed (s : State) (pushed : List Frame) (t : State) : Prop where
  stack : t.stack = pushed ++ s.stack
  queued : ∃ fs, t.queue.waiting = s.queue.waiting ++ fs ∧
    ∀ f ∈ fs, f.callsBack ∨ f = .forceCloseInLoop
  batch : t.queue.batch = s.queue.batch
  threads : t.threads = s.threads
  phase : t.phase = s.phase
  active : t.active = s.active
  current : t.current = s.current
  todo : t.todo = s.todo
  home : t.home = s.home
  introduced : t.introduced = s.introduced
  owned : t.owned = s.owned
  torn : t.torn = s.torn
  fault : t.fault = s.fault

def marks (s : State) :=
  (s.threads, s.phase, s.active, s.current, s.todo, s.home, s.introduced, s.owned, s.torn, s.fault)

theorem executed_same (stack : t.stack = pushed ++ s.stack) (queue : t.queue = s.queue)
    (same : marks t = marks s) : Executed s pushed t := by
  simp only [marks, Prod.mk.injEq] at same
  obtain ⟨threads, phase, active, current, todo, home, introduced, owned, torn, fault⟩ := same
  exact ⟨stack, ⟨[], by simp [queue], by simp⟩, by rw [queue], threads, phase, active, current,
    todo, home, introduced, owned, torn, fault⟩

theorem executed_queued {c : Conn} {out : Output} (calls : ∀ f ∈ out.queued, f.callsBack) :
    Executed s pushed (enter (deliver s (c, out)) pushed) := by
  exact ⟨rfl, ⟨out.queued, Batch.waiting_foldl_push _ _, fun f member => Or.inl (calls f member)⟩,
    Batch.batch_foldl_push _ _, rfl, rfl, rfl, rfl, rfl, rfl, rfl, rfl, rfl, rfl⟩

def Leaves (s : State) : Frame → List Frame → Prop
  | .run .connectEstablished, pushed => pushed = [.connectionCallback .up]
  | .run .connectDestroyed, pushed =>
    pushed = if s.conn.state_ = .kConnected then [.connectionCallback .down, .removeChannel]
      else [.removeChannel]
  | .run .forceCloseInLoop, pushed | .hangUpTest, pushed | .readTest, pushed =>
    pushed = [] ∨ pushed = [.userCode] ∨ pushed = [.connectionCallback .down, .closeCallback]
  | _, pushed => pushed = [] ∨ pushed = [.userCode] ∨ pushed = [.drainedTest]

theorem did_executed (did : Did s frame t) :
    ∃ pushed, Executed s pushed t ∧ Leaves s frame pushed := by
  cases did with
  | nothing idle =>
    refine ⟨[], executed_same rfl rfl rfl, ?_⟩
    cases frame with
    | run f => cases f <;> simp_all [Leaves, Frame.mayIdle]
    | _ => simp [Leaves]
  | user calls =>
    refine ⟨[.userCode], executed_same rfl rfl rfl, ?_⟩
    cases frame with
    | run f => cases f <;> simp_all [Leaves, Frame.callsUser]
    | _ => simp [Leaves]
  | send spec =>
    obtain ⟨stack, queued, batch, -⟩ : Executed s [] (enter (deliver s _) []) :=
      executed_queued spec.queued
    exact ⟨[], ⟨stack, queued, batch, rfl, rfl, rfl, rfl, rfl, rfl, rfl, rfl, rfl, rfl⟩,
      Or.inl rfl⟩
  | halfClose tested =>
    refine ⟨[], ?_, ?_⟩
    · unfold shutdownInLoop
      split <;> exact executed_same rfl rfl rfl
    · rcases tested with rfl | ⟨rfl, -⟩ <;> exact Or.inl rfl
  | close origin =>
    refine ⟨_, executed_same rfl rfl rfl, ?_⟩
    rcases origin with (⟨rfl, -⟩ | ⟨rfl, -⟩) | rfl <;> exact Or.inr (Or.inr rfl)
  | destroy up =>
    exact ⟨_, executed_same rfl rfl rfl, by simp [Leaves, up]⟩
  | destroyRest not_up =>
    exact ⟨_, executed_same rfl rfl rfl, by simp [Leaves, not_up]⟩
  | establish =>
    exact ⟨_, executed_same rfl rfl rfl, rfl⟩
  | write spec =>
    refine ⟨_, executed_queued spec.queued, ?_⟩
    split <;> simp [Leaves]
  | queueForceClose =>
    refine ⟨[], ⟨rfl, ⟨[.forceCloseInLoop], Batch.waiting_push _ _, by simp⟩, rfl, rfl, rfl, rfl,
      rfl, rfl, rfl, rfl, rfl, rfl, rfl⟩, Or.inl rfl⟩
  | callback =>
    exact ⟨_, executed_same rfl rfl rfl, Or.inr (Or.inl rfl)⟩
  | startRead | stopRead | addTimer | eventDone | closeCallback | remove =>
    exact ⟨[], executed_same rfl rfl rfl, Or.inl rfl⟩

structure Tame (pushed : List Frame) : Prop where
  tail : ∀ frame ∈ pushed.tail, frame.resting = true
  runs : ∀ f, .run f ∉ pushed
  reads : .readTest ∉ pushed
  hangs : .hangUpTest ∉ pushed

theorem leaves_tame (leaves : Leaves s frame pushed) :
    Tame pushed := by
  have cases : pushed = [] ∨ pushed = [.userCode] ∨ pushed = [.drainedTest] ∨
      pushed = [.connectionCallback .up] ∨ pushed = [.removeChannel] ∨
      pushed = [.connectionCallback .down, .closeCallback] ∨
      pushed = [.connectionCallback .down, .removeChannel] := by
    unfold Leaves at leaves
    split at leaves
    · simp [leaves]
    · split at leaves <;> simp [leaves]
    all_goals rcases leaves with rfl | rfl | rfl <;> simp
  rcases cases with rfl | rfl | rfl | rfl | rfl | rfl | rfl <;>
    constructor <;> simp [Frame.resting]

theorem tail_resting {base : List Frame} (order : ∀ frame ∈ pushed.tail, frame.resting = true)
    (below : ∀ frame ∈ base, frame.resting = true) :
    ∀ frame ∈ (pushed ++ base).tail, frame.resting = true := by
  intro frame member
  cases pushed with
  | nil => exact below frame (List.mem_of_mem_tail member)
  | cons first others =>
    rcases List.mem_append.mp member with inside | lower
    · exact order frame inside
    · exact below frame lower

theorem Flow.below (inv : Flow s) (top : s.stack = frame :: rest) :
    ∀ other ∈ rest, other.resting = true := by
  have below := inv.tail
  rwa [top] at below

theorem Flow.all_resting (inv : Flow s) (top : s.stack = .userCode :: rest) :
    ∀ frame ∈ s.stack, frame.resting = true := by
  intro frame member
  rw [top] at member
  rcases List.mem_cons.mp member with rfl | lower
  · rfl
  · exact inv.below top frame lower

theorem flow_exec (inv : Flow s) (top : s.stack = frame :: rest)
    (did : Did { s with stack := rest } frame t) : Flow t := by
  obtain ⟨pushed, executed, leaves⟩ := did_executed did
  have tame := leaves_tame leaves
  have stack : t.stack = pushed ++ rest := executed.stack
  have below := inv.below top
  constructor
  · rw [stack]
    exact tail_resting tame.tail below
  · have single := inv.single
    rw [top] at single
    rw [stack, List.count_append, List.count_eq_zero.mpr tame.reads, Nat.zero_add]
    exact Nat.le_trans (List.count_le_count_cons) single
  · rw [executed.threads]
    exact inv.api
  · rw [executed.phase, executed.batch]
    exact inv.batch
  · intro member
    rw [stack, List.mem_append] at member
    rcases member with new | old
    · exact absurd new (tame.runs _)
    · have := below _ old
      cases this
  · rw [executed.current, executed.phase]
    exact inv.current
  · intro member
    rw [executed.current]
    apply inv.dispatched
    rw [stack] at member
    rw [top]
    simp only [List.mem_append, tame.reads, tame.hangs, false_or] at member
    exact member.imp (List.mem_cons_of_mem _) (List.mem_cons_of_mem _)
  · rw [executed.todo, executed.phase, executed.active, executed.current]
    exact inv.todo

theorem flow_put (inv : Flow s) (below : ∀ other ∈ s.stack, other.resting = true)
    (forced : frame = .run .forceCloseInLoop → s.phase = .functors) (read : frame ≠ .readTest)
    (hang : frame ≠ .hangUpTest) : Flow { s with stack := frame :: s.stack } := by
  constructor
  · exact below
  · rw [List.count_cons_of_ne read]
    exact inv.single
  · exact inv.api
  · exact inv.batch
  · intro member
    rcases List.mem_cons.mp member with new | old
    · exact forced new.symm
    · exact inv.forced old
  · exact inv.current
  · intro member
    refine inv.dispatched (member.imp ?_ ?_)
    · intro inside
      exact (List.mem_cons.mp inside).resolve_left fun same => read same.symm
    · intro inside
      exact (List.mem_cons.mp inside).resolve_left fun same => hang same.symm
  · exact inv.todo

theorem asked_flow (asked : Asked s caller c t r) (inv : Flow s) :
    Flow t ∧ t.stack = s.stack ∧ t.threads = s.threads ∧
      (∀ q, r = some q → q.functor.api = true ∧ q.frame ≠ .run .forceCloseInLoop ∧
        q.frame ≠ .readTest ∧ q.frame ≠ .hangUpTest) := by
  cases asked <;> refine ⟨{ inv with }, rfl, rfl, ?_⟩ <;> simp [Request.functor, Request.frame,
    Functor.api]

theorem flow_loopCall (inv : Flow s) (below : ∀ frame ∈ s.stack, frame.resting = true)
    (asked : Asked s .loop c t r) :
    Flow { t with stack := (r.map Request.frame).toList ++ t.stack } := by
  obtain ⟨kept, stack, -, request⟩ := asked_flow asked inv
  cases r with
  | none => exact kept
  | some q =>
    obtain ⟨-, forced, read, hang⟩ := request q rfl
    exact flow_put kept (by rwa [stack]) (fun same => absurd same forced) read hang

theorem flow_pushFunctor (inv : Flow s) : Flow (pushFunctor s f) := { inv with }

theorem flow_ownerRan (ran : OwnerRan s f t) (inv : Flow s) (forced : f ≠ .forceCloseInLoop) :
    Flow t := by
  cases ran with
  | here _ top =>
    exact flow_put inv (inv.all_resting top) (by simp [forced]) nofun nofun
  | away => exact flow_pushFunctor inv

theorem flow_threads {n : Nat} {f : Option Functor} (inv : Flow s)
    (api : ∀ g, f = some g → g.api = true) :
    Flow { s with threads := Function.update s.threads n f } := by
  refine { inv with api := ?_ }
  intro k g held
  by_cases same : k = n
  · subst same
    exact api g (by simpa using held)
  · exact inv.api k g (by simpa [Function.update_of_ne same] using held)

theorem flow_step (sound : s.conn.Sound) (inv : Flow s) (taken : step s l = some t) :
    Flow t := by
  obtain ⟨-, stepped⟩ := stepped sound taken
  cases stepped with
  | threadCall _ asked =>
    obtain ⟨kept, -, threads, request⟩ := asked_flow asked inv
    rw [← threads]
    refine flow_threads kept ?_
    intro g made
    obtain ⟨q, rfl, rfl⟩ := Option.map_eq_some_iff.mp made
    exact (request q rfl).1
  | @threadPush n f _ =>
    obtain ⟨returned, pushed⟩ := threadPush_eq s n f
    rw [pushed]
    have kept : Flow { s with threads := Function.update s.threads n none } :=
      flow_threads inv nofun
    exact { kept with }
  | introduce _ ran => exact flow_ownerRan ran { inv with } nofun
  | ownerTearsDown _ _ ran => exact flow_ownerRan ran { inv with } nofun
  | pollNone polling _ =>
    refine { inv with batch := ?_, forced := ?_, current := ?_, todo := nofun }
    · intro _
      exact inv.batch (by rw [polling]; decide)
    · intro member
      have := inv.forced member
      rw [polling] at this
      cases this
    · intro _
      rfl
  | pollSome polling _ =>
    have idle : s.current = false := by
      by_contra still
      have := inv.current (by simpa using still)
      rw [polling] at this
      cases this
    refine { inv with batch := ?_, forced := ?_, current := ?_, todo := ?_ }
    · intro _
      exact inv.batch (by rw [polling]; decide)
    · intro member
      have := inv.forced member
      rw [polling] at this
      cases this
    · intro _
      rfl
    · intro _
      exact ⟨rfl, rfl, idle⟩
  | otherCode _ empty =>
    refine flow_put (s := { s with current := false }) ?_ (by simp [empty]) nofun nofun nofun
    refine { inv with current := nofun, dispatched := ?_, todo := ?_ }
    · simp [empty]
    · intro todo
      obtain ⟨handling, active, -⟩ := inv.todo todo
      exact ⟨handling, active, rfl⟩
  | dispatch handling empty _ =>
    refine { inv with
      tail := ?_, single := ?_, forced := ?_, current := fun _ => handling
      dispatched := fun _ => rfl, todo := nofun }
    · simp [enter, empty, Frame.resting]
    · simp [enter, empty]
    · simp [enter, empty]
  | fireTimer _ empty _ asked =>
    have kept : Flow { s with timers := s.timers - 1, current := false } := by
      refine { inv with current := nofun, dispatched := ?_, todo := ?_ }
      · simp [empty]
      · intro todo
        obtain ⟨handling, active, -⟩ := inv.todo todo
        exact ⟨handling, active, rfl⟩
    exact flow_loopCall kept (by simp [empty]) asked
  | endHandling _ empty done =>
    refine { inv with
      batch := ?_, forced := fun _ => rfl, current := nofun, dispatched := ?_, todo := ?_ }
    · intro working
      exact absurd rfl working
    · simp [empty]
    · simp [done]
  | @nextFunctor f q functors empty _ =>
    have kept : Flow { s with queue := q } := { inv with batch := fun idle => absurd functors idle }
    exact flow_put kept (by simp [empty]) (fun _ => functors) nofun nofun
  | endFunctors functors empty done =>
    have idle : s.current = true → False := by
      intro still
      have := inv.current still
      rw [functors] at this
      cases this
    refine { inv with batch := fun _ => done, forced := ?_, current := ?_, todo := ?_ }
    · simp [empty]
    · intro still
      exact (idle still).elim
    · intro todo
      have := (inv.todo todo).1
      rw [functors] at this
      cases this
  | call top asked => exact flow_loopCall inv (inv.all_resting top) asked
  | ret top =>
    refine { inv with tail := ?_, single := ?_, forced := ?_, dispatched := ?_ }
    · intro frame member
      exact inv.below top frame (List.mem_of_mem_tail member)
    · simpa [top] using inv.single
    · intro member
      exact inv.forced (by rw [top]; exact List.mem_cons_of_mem _ member)
    · intro member
      refine inv.dispatched ?_
      rw [top]
      exact member.imp (List.mem_cons_of_mem _) (List.mem_cons_of_mem _)
  | exec top did => exact flow_exec inv top did
  | queueTask | ownerRemoves => exact flow_pushFunctor { inv with }
  | failed => exact { inv with }

def Functor.lifeline : Functor → List Functor
  | .connectEstablished => [.connectEstablished]
  | .connectDestroyed => [.connectDestroyed]
  | _ => []

def Frame.lifeline : Frame → List Functor
  | .run f => f.lifeline
  | _ => []

def Frame.tells : Frame → List Told
  | .connectionCallback told => [told]
  | _ => []

def lifeline (s : State) : List Functor :=
  s.stack.flatMap Frame.lifeline ++ s.queue.waiting.flatMap Functor.lifeline

/-- How often connectDestroyed has got past its test of state_. -/
def destroyed (s : State) : Nat := s.hist.removals + s.stack.count .removeChannel

/-- What connectionCallback_ has been told once state_ is reached. -/
def expected : StateE → List Told
  | .kConnecting => []
  | .kConnected | .kDisconnecting => [.up]
  | .kDisconnected => [.up, .down]

def dueUp (introduced : Bool) (state : StateE) : List Functor :=
  if introduced = true ∧ state = .kConnecting then [.connectEstablished] else []

def dueDown (owned : Bool) (destroyed : Nat) : List Functor :=
  if owned = false ∧ destroyed = 0 then [.connectDestroyed] else []

structure Ledger (s : State) : Prop where
  line : lifeline s = dueUp s.introduced s.conn.state_ ++ dueDown s.owned (destroyed s)
  unborn : s.introduced = false → s.conn.state_ = .kConnecting ∧ s.owned = true
  once : destroyed s ≤ 1
  kept : s.owned = true → destroyed s = 0
  homely : s.home = true → .connectEstablished ∉ s.queue.waiting
  told : s.hist.told ++ s.stack.flatMap Frame.tells = expected s.conn.state_
  closing : s.hist.closes + s.stack.count .closeCallback = s.hist.closed.toNat
  closed_down : s.hist.closed = true → s.conn.state_ = .kDisconnected
  down : s.conn.state_ = .kDisconnected → s.hist.closed = true ∨ s.torn = true
  disowned : s.owned = false → s.torn = true ∨ 0 < s.hist.closes
  destroying : .run .connectDestroyed ∈ s.stack → s.torn = true ∨ s.phase = .functors

theorem ledger_init (setup : Setup) : Ledger (init setup) := by
  constructor <;> simp [init, lifeline, destroyed, expected, Conn.new, History.empty, dueUp, dueDown]

theorem ledger_moved (inv : Ledger s) (line : lifeline t = lifeline s)
    (state : t.conn.state_ = s.conn.state_ ∨ (s.conn.alive ∧ t.conn.alive))
    (gone : destroyed t = destroyed s) (introduced : t.introduced = s.introduced)
    (owned : t.owned = s.owned) (torn : t.torn = s.torn) (home : t.home = s.home)
    (homely : .connectEstablished ∈ t.queue.waiting → .connectEstablished ∈ s.queue.waiting)
    (told : t.hist.told ++ t.stack.flatMap Frame.tells =
      s.hist.told ++ s.stack.flatMap Frame.tells)
    (closing : t.hist.closes + t.stack.count .closeCallback =
      s.hist.closes + s.stack.count .closeCallback)
    (closes : s.hist.closes ≤ t.hist.closes) (closed : t.hist.closed = s.hist.closed)
    (destroying : .run .connectDestroyed ∈ t.stack → t.torn = true ∨ t.phase = .functors) :
    Ledger t := by
  have connecting : t.conn.state_ = .kConnecting ↔ s.conn.state_ = .kConnecting := by
    rcases state with same | ⟨before, after⟩
    · rw [same]
    · rcases before with b | b <;> rcases after with a | a <;> simp [a, b]
  have disconnected : t.conn.state_ = .kDisconnected ↔ s.conn.state_ = .kDisconnected := by
    rcases state with same | ⟨before, after⟩
    · rw [same]
    · rcases before with b | b <;> rcases after with a | a <;> simp [a, b]
  have hopes : expected t.conn.state_ = expected s.conn.state_ := by
    rcases state with same | ⟨before, after⟩
    · rw [same]
    · rcases before with b | b <;> rcases after with a | a <;> simp [a, b, expected]
  constructor
  · rw [line, inv.line, introduced, owned, gone]
    simp only [dueUp, connecting]
  · rw [introduced, connecting, owned]
    exact inv.unborn
  · rw [gone]
    exact inv.once
  · rw [owned, gone]
    exact inv.kept
  · rw [home]
    intro same member
    exact inv.homely same (homely member)
  · rw [told, hopes]
    exact inv.told
  · rw [closing, closed]
    exact inv.closing
  · rw [closed, disconnected]
    exact inv.closed_down
  · rw [closed, disconnected, torn]
    exact inv.down
  · rw [owned, torn]
    intro free
    exact (inv.disowned free).imp_right fun some => Nat.lt_of_lt_of_le some closes
  · exact destroying

theorem resting_lifeline (resting : frame.resting = true) : frame.lifeline = [] := by
  cases frame with
  | run f => cases resting
  | _ => rfl

theorem resting_tells (resting : frame.resting = true) : frame.tells = [] := by
  cases frame with
  | connectionCallback told => cases resting
  | _ => rfl

theorem resting_silent {base : List Frame} (below : ∀ frame ∈ base, frame.resting = true) :
    base.flatMap Frame.lifeline = [] ∧ base.flatMap Frame.tells = [] ∧
      ∀ f, .run f ∉ base := by
  refine ⟨?_, ?_, ?_⟩
  · rw [List.flatMap_eq_nil_iff]
    intro frame member
    exact resting_lifeline (below frame member)
  · rw [List.flatMap_eq_nil_iff]
    intro frame member
    exact resting_tells (below frame member)
  · intro f member
    cases below _ member

theorem tame_lifeline (tame : Tame pushed) :
    pushed.flatMap Frame.lifeline = [] := by
  rw [List.flatMap_eq_nil_iff]
  intro frame member
  cases frame with
  | run f => exact absurd member (tame.runs f)
  | _ => rfl

def Frame.plain : Frame → Bool
  | .run .connectEstablished | .run .connectDestroyed | .connectionCallback _ => false
  | .closeCallback | .removeChannel => false
  | _ => true

structure Silent (frames : List Frame) : Prop where
  line : frames.flatMap Frame.lifeline = []
  tells : frames.flatMap Frame.tells = []
  closes : frames.count .closeCallback = 0
  removes : frames.count .removeChannel = 0

theorem plain_silent {frames : List Frame} (plain : ∀ frame ∈ frames, frame.plain = true) :
    Silent frames := by
  constructor
  · rw [List.flatMap_eq_nil_iff]
    intro frame member
    have := plain frame member
    cases frame with
    | run f => cases f <;> first | rfl | cases this
    | _ => rfl
  · rw [List.flatMap_eq_nil_iff]
    intro frame member
    have := plain frame member
    cases frame <;> first | rfl | cases this
  · rw [List.count_eq_zero]
    intro member
    cases plain _ member
  · rw [List.count_eq_zero]
    intro member
    cases plain _ member

theorem executed_accounts (flow : Flow s) (top : s.stack = frame :: rest)
    (executed : Executed { s with stack := rest } pushed t) (tame : Tame pushed) :
    lifeline s = frame.lifeline ++ lifeline t ∧
      s.stack.flatMap Frame.tells = frame.tells ∧
      t.stack.flatMap Frame.tells = pushed.flatMap Frame.tells ∧
      (.connectEstablished ∈ t.queue.waiting → .connectEstablished ∈ s.queue.waiting) ∧
      ∀ f, .run f ∉ t.stack := by
  obtain ⟨no_line, no_tells, no_runs⟩ := resting_silent (flow.below top)
  obtain ⟨fs, waiting, foreign⟩ := executed.queued
  have stack : t.stack = pushed ++ rest := executed.stack
  have new_line : fs.flatMap Functor.lifeline = [] := by
    rw [List.flatMap_eq_nil_iff]
    intro f member
    rcases foreign f member with (rfl | ⟨n, rfl⟩) | rfl <;> rfl
  refine ⟨?_, ?_, ?_, ?_, ?_⟩
  · simp only [lifeline, top, stack, waiting, List.flatMap_cons, List.flatMap_append, no_line,
      tame_lifeline tame, new_line, List.append_nil, List.nil_append]
  · simp [top, no_tells]
  · simp [stack, no_tells]
  · intro member
    rw [waiting, List.mem_append] at member
    rcases member with old | new
    · exact old
    · rcases foreign _ new with (impossible | ⟨n, impossible⟩) | impossible <;> cases impossible
  · intro f member
    rw [stack, List.mem_append] at member
    rcases member with new | old
    · exact tame.runs f new
    · exact no_runs f old

def accounts (s : State) :=
  (s.conn.state_, s.hist.told, s.hist.closes, s.hist.closed, s.hist.removals)

theorem ledger_plain (inv : Ledger s) (flow : Flow s) (top : s.stack = frame :: rest)
    (executed : Executed { s with stack := rest } pushed t)
    (left : pushed = [] ∨ pushed = [.userCode] ∨ pushed = [.drainedTest])
    (plain : frame.plain = true) (same : accounts t = accounts s) : Ledger t := by
  simp only [accounts, Prod.mk.injEq] at same
  obtain ⟨state, told, closes, closed, removals⟩ := same
  have tame : Tame pushed := by
    rcases left with rfl | rfl | rfl <;> constructor <;> simp
  have pushed_silent : Silent pushed :=
    plain_silent (by rcases left with rfl | rfl | rfl <;> simp [Frame.plain])
  obtain ⟨line, tells, tells', homely, no_runs⟩ := executed_accounts flow top executed tame
  have stack : t.stack = pushed ++ rest := executed.stack
  have silent : Silent [frame] := plain_silent (by simpa using plain)
  have quiet := silent.line
  have quiet' := silent.tells
  have no_close := silent.closes
  have no_remove := silent.removes
  simp only [List.flatMap_cons, List.flatMap_nil, List.append_nil] at quiet quiet'
  refine ledger_moved inv ?_ (Or.inl state) ?_ executed.introduced executed.owned executed.torn
    executed.home homely ?_ ?_ (Nat.le_of_eq closes.symm) closed (fun member => absurd member (no_runs _))
  · rw [line, quiet, List.nil_append]
  · have before : s.stack.count .removeChannel = rest.count .removeChannel := by
      rw [top, ← List.singleton_append, List.count_append, no_remove, Nat.zero_add]
    simp only [destroyed, removals, stack, List.count_append, pushed_silent.removes, before,
      Nat.zero_add]
  · rw [told, tells, tells', quiet', pushed_silent.tells]
  · have before : s.stack.count .closeCallback = rest.count .closeCallback := by
      rw [top, ← List.singleton_append, List.count_append, no_close, Nat.zero_add]
    rw [closes, stack, List.count_append, pushed_silent.closes, before, Nat.zero_add]

theorem Ledger.destroying_facts (inv : Ledger s) (flow : Flow s)
    (top : s.stack = .run .connectDestroyed :: rest) :
    s.introduced = true ∧ s.owned = false ∧ destroyed s = 0 ∧ s.conn.state_ ≠ .kConnecting ∧
      s.queue.waiting.flatMap Functor.lifeline = [] := by
  have line := inv.line
  have held : lifeline s = .connectDestroyed :: s.queue.waiting.flatMap Functor.lifeline := by
    simp [lifeline, top, (resting_silent (flow.below top)).1, Frame.lifeline, Functor.lifeline]
  rw [held] at line
  have born : s.introduced = true := by
    by_contra unborn
    have facts := inv.unborn (by simpa using unborn)
    simp [dueUp, dueDown, facts.2, unborn] at line
  by_cases connecting : s.conn.state_ = .kConnecting
  · simp [dueUp, born, connecting] at line
  · by_cases free : s.owned = false ∧ destroyed s = 0
    · simp only [dueUp, dueDown, connecting, and_false, if_false, free, and_self, if_true,
        List.nil_append, List.cons.injEq, true_and] at line
      exact ⟨born, free.1, free.2, connecting, line⟩
    · simp [dueUp, dueDown, connecting, free] at line

theorem removes_below (top : s.stack = .run .connectDestroyed :: rest) (not_gone : destroyed s = 0) :
    rest.count .removeChannel = 0 ∧ s.hist.removals = 0 := by
  simp only [destroyed, top, List.count_cons] at not_gone
  simp at not_gone
  omega

theorem Ledger.open_of_up (inv : Ledger s) (up : s.conn.state_ ≠ .kDisconnected) :
    s.hist.closed = false := by
  by_contra closed
  exact up (inv.closed_down (by simpa using closed))

theorem Ledger.establishing (inv : Ledger s) (top : s.stack = .run .connectEstablished :: rest) :
    s.conn.state_ = .kConnecting := by
  have line := inv.line
  by_contra not_connecting
  rw [lifeline, top] at line
  by_cases free : s.owned = false ∧ destroyed s = 0
  · simp [dueUp, dueDown, not_connecting, free, Frame.lifeline, Functor.lifeline] at line
  · simp [dueUp, dueDown, not_connecting, free, Frame.lifeline, Functor.lifeline] at line

theorem alive_expected {c : Conn} (alive : c.alive) :
    expected c.state_ = [.up] ∧ c.state_ ≠ .kConnecting ∧ c.state_ ≠ .kDisconnected := by
  rcases alive with up | closing
  · simp [up, expected]
  · simp [closing, expected]

theorem ledger_close {ev : Events} (inv : Ledger s) (flow : Flow s) (top : s.stack = frame :: rest)
    (origin : ClosesFrom ev frame ∨ frame = .run .forceCloseInLoop) (alive : s.conn.alive) :
    Ledger (closedBy { s with stack := rest }) := by
  obtain ⟨hopes, not_connecting, not_down⟩ := alive_expected alive
  have plain : frame.plain = true := by
    rcases origin with (⟨rfl, -⟩ | ⟨rfl, -⟩) | rfl <;> rfl
  have silent : Silent [frame] := plain_silent (by simpa using plain)
  have line : frame.lifeline = [] := by simpa using silent.line
  have no_tells : frame.tells = [] := by simpa using silent.tells
  have counts : ∀ other, [frame].count other = 0 → s.stack.count other = rest.count other := by
    intro other none_here
    rw [top, ← List.singleton_append, List.count_append, none_here, Nat.zero_add]
  obtain ⟨below_line, below_tells, no_runs⟩ := resting_silent (flow.below top)
  have open_ := inv.open_of_up not_down
  have same_line : lifeline (closedBy { s with stack := rest }) = lifeline s := by
    simp only [lifeline, closedBy, enter, deliver, top, List.flatMap_cons, line, List.nil_append]
    rfl
  have same_gone : destroyed (closedBy { s with stack := rest }) = destroyed s := by
    simp [destroyed, closedBy, enter, deliver, counts _ silent.removes]
  constructor
  · rw [same_line, inv.line, same_gone]
    simp [dueUp, closedBy, enter, deliver, Conn.disconnected, not_connecting]
  · intro unborn
    exact absurd (inv.unborn unborn).1 not_connecting
  · rw [same_gone]
    exact inv.once
  · rw [same_gone]
    exact inv.kept
  · exact inv.homely
  · have told := inv.told
    simp only [top, List.flatMap_cons, no_tells, below_tells, List.append_nil, hopes] at told
    simp [closedBy, enter, deliver, Conn.disconnected, expected, told, below_tells, Frame.tells]
  · have closing := inv.closing
    simp only [counts _ silent.closes, open_] at closing
    simp only [Bool.toNat_false] at closing
    simp only [closedBy, enter, deliver, List.cons_append, List.nil_append, Bool.toNat_true]
    rw [List.count_cons_of_ne (by decide), List.count_cons_self]
    omega
  · intro _
    rfl
  · intro _
    exact Or.inl rfl
  · exact inv.disowned
  · intro member
    simp [closedBy, enter, deliver, no_runs] at member

theorem ledger_establish (inv : Ledger s) (flow : Flow s)
    (top : s.stack = .run .connectEstablished :: rest) (connecting : s.conn.state_ = .kConnecting) :
    Ledger (enter (deliver { s with stack := rest } (s.conn.established, { updates := 1 }))
      [.connectionCallback .up]) := by
  obtain ⟨below_line, below_tells, no_runs⟩ := resting_silent (flow.below top)
  have line := inv.line
  have held : lifeline s = .connectEstablished :: s.queue.waiting.flatMap Functor.lifeline := by
    simp [lifeline, top, below_line, Frame.lifeline, Functor.lifeline]
  have born : s.introduced = true := by
    by_contra unborn
    have facts := inv.unborn (by simpa using unborn)
    simp [dueUp, dueDown, held, facts.2, unborn] at line
  have open_ := inv.open_of_up (by rw [connecting]; nofun)
  constructor
  · simp only [held, dueUp, born, connecting, and_self, if_true, List.singleton_append,
      List.cons.injEq, true_and] at line
    simp only [destroyed, top, List.count_cons] at line
    simpa [lifeline, enter, deliver, destroyed, below_line, Frame.lifeline, dueUp,
      Conn.established] using line
  · intro unborn
    rw [show s.introduced = false from unborn] at born
    cases born
  · simpa [destroyed, enter, deliver, top] using inv.once
  · simpa [destroyed, enter, deliver, top] using inv.kept
  · exact inv.homely
  · have told := inv.told
    simp only [top, List.flatMap_cons, below_tells, connecting, expected] at told
    simp at told
    simp [enter, deliver, Conn.established, expected, told, below_tells, Frame.tells]
  · simpa [enter, deliver, top] using inv.closing
  · intro closed
    rw [show s.hist.closed = true from closed] at open_
    cases open_
  · intro impossible
    cases impossible
  · exact inv.disowned
  · intro member
    simp [enter, deliver, no_runs] at member

theorem ledger_destroy (inv : Ledger s) (flow : Flow s)
    (top : s.stack = .run .connectDestroyed :: rest) (up : s.conn.state_ = .kConnected) :
    Ledger (enter (deliver { s with stack := rest } (s.conn.disconnected, { updates := 1 }))
      [.connectionCallback .down, .removeChannel]) := by
  obtain ⟨below_line, below_tells, no_runs⟩ := resting_silent (flow.below top)
  obtain ⟨born, free, not_gone, -, no_more⟩ := inv.destroying_facts flow top
  have open_ := inv.open_of_up (by rw [up]; nofun)
  have torn : s.torn = true := by
    rcases inv.disowned free with torn | some
    · exact torn
    · have closing := inv.closing
      rw [open_] at closing
      simp at closing
      omega
  have below_removes := removes_below top not_gone
  constructor
  · simp [lifeline, enter, deliver, destroyed, below_line, Frame.lifeline, no_more,
      Conn.disconnected, dueUp, dueDown]
  · intro unborn
    rw [show s.introduced = false from unborn] at born
    cases born
  · simp [destroyed, enter, deliver, below_removes]
  · intro owned
    rw [show s.owned = true from owned] at free
    cases free
  · exact inv.homely
  · have told := inv.told
    simp only [top, List.flatMap_cons, below_tells, up, expected] at told
    simp [Frame.tells] at told
    simp [enter, deliver, Conn.disconnected, expected, told, below_tells, Frame.tells]
  · simpa [enter, deliver, top] using inv.closing
  · intro _
    rfl
  · intro _
    exact Or.inr torn
  · intro _
    exact Or.inl torn
  · intro member
    simp [enter, deliver, no_runs] at member

theorem ledger_destroyRest (inv : Ledger s) (flow : Flow s)
    (top : s.stack = .run .connectDestroyed :: rest) :
    Ledger (enter { s with stack := rest } [.removeChannel]) := by
  obtain ⟨below_line, below_tells, no_runs⟩ := resting_silent (flow.below top)
  obtain ⟨born, free, not_gone, not_connecting, no_more⟩ := inv.destroying_facts flow top
  have below_removes := removes_below top not_gone
  constructor
  · simp [lifeline, enter, destroyed, below_line, Frame.lifeline, no_more, not_connecting, dueUp,
      dueDown]
  · exact inv.unborn
  · simp [destroyed, enter, below_removes]
  · intro owned
    rw [show s.owned = true from owned] at free
    cases free
  · exact inv.homely
  · simpa [enter, top, below_tells, Frame.tells] using inv.told
  · simpa [enter, top] using inv.closing
  · exact inv.closed_down
  · exact inv.down
  · exact inv.disowned
  · intro member
    simp [enter, no_runs] at member

theorem ledger_exec (inv : Ledger s) (flow : Flow s) (top : s.stack = frame :: rest)
    (did : Did { s with stack := rest } frame t) : Ledger t := by
  obtain ⟨pushed, executed, leaves⟩ := did_executed did
  have tame := leaves_tame leaves
  obtain ⟨line, tells, tells', homely, no_runs⟩ := executed_accounts flow top executed tame
  obtain ⟨-, below_tells, -⟩ := resting_silent (flow.below top)
  cases did with
  | close origin alive => exact ledger_close inv flow top origin alive
  | establish connecting => exact ledger_establish inv flow top connecting
  | destroy up => exact ledger_destroy inv flow top up
  | destroyRest => exact ledger_destroyRest inv flow top
  | callback =>
    refine ledger_moved inv line.symm (Or.inl rfl) ?_ rfl rfl rfl rfl id ?_ ?_ (Nat.le_refl _) rfl
      (fun member => absurd member (no_runs _))
    · simp [destroyed, enter, top]
    · simp [enter, top, below_tells, Frame.tells]
    · simp [enter, top]
  | closeCallback =>
    refine ledger_moved inv line.symm (Or.inl rfl) ?_ rfl rfl rfl rfl id ?_ ?_ (Nat.le_succ _) rfl
      (fun member => absurd member (no_runs _))
    · simp [destroyed, top]
    · simp [top, below_tells, Frame.tells]
    · simp only [top, List.count_cons_self]
      omega
  | remove =>
    refine ledger_moved inv line.symm (Or.inl rfl) ?_ rfl rfl rfl rfl id ?_ ?_ (Nat.le_refl _) rfl
      (fun member => absurd member (no_runs _))
    · simp only [destroyed, top, List.count_cons_self]
      omega
    · simp [top, below_tells, Frame.tells]
    · simp [top]
  | nothing idle =>
    have plain : frame.plain = true := by
      cases frame with
      | run f => cases f <;> first | rfl | cases idle
      | _ => first | rfl | cases idle
    exact ledger_plain inv flow top (executed_same rfl rfl rfl) (Or.inl rfl) plain rfl
  | user calls =>
    have plain : frame.plain = true := by
      cases frame with
      | run f => cases f <;> first | rfl | cases calls
      | _ => first | rfl | cases calls
    exact ledger_plain inv flow top (executed_same rfl rfl rfl) (Or.inr (Or.inl rfl)) plain rfl
  | halfClose tested =>
    have plain : frame.plain = true := by
      rcases tested with rfl | ⟨rfl, -⟩ <;> rfl
    unfold shutdownInLoop
    split <;> exact ledger_plain inv flow top (executed_same rfl rfl rfl) (Or.inl rfl) plain rfl
  | send spec =>
    refine ledger_plain inv flow top executed leaves rfl ?_
    simp [accounts, deliver, noteRan, spec.state]
  | write spec =>
    refine ledger_plain inv flow top executed leaves rfl ?_
    simp [accounts, enter, deliver, spec.state]
  | startRead | stopRead | addTimer | queueForceClose | eventDone =>
    exact ledger_plain inv flow top executed leaves rfl rfl

theorem ledger_put (inv : Ledger s) (plain : frame.plain = true) :
    Ledger { s with stack := frame :: s.stack } := by
  have silent : Silent [frame] := plain_silent (by simpa using plain)
  have line : frame.lifeline = [] := by simpa using silent.line
  have tells : frame.tells = [] := by simpa using silent.tells
  have counts : ∀ other, [frame].count other = 0 →
      (frame :: s.stack).count other = s.stack.count other := by
    intro other none_here
    rw [← List.singleton_append, List.count_append, none_here, Nat.zero_add]
  refine ledger_moved inv ?_ (Or.inl rfl) ?_ rfl rfl rfl rfl id ?_ ?_ (Nat.le_refl _) rfl ?_
  · simp only [lifeline, List.flatMap_cons, line, List.nil_append]
  · simp only [destroyed, counts _ silent.removes]
  · simp only [List.flatMap_cons, tells, List.nil_append]
  · simp only [counts _ silent.closes]
  · intro member
    rcases List.mem_cons.mp member with new | old
    · rw [← new] at plain
      cases plain
    · exact inv.destroying old

theorem ledger_asked (asked : Asked s caller c t r) (inv : Ledger s) :
    Ledger t ∧ ∀ q, r = some q → q.frame.plain = true := by
  have moved : ∀ {t : State}, lifeline t = lifeline s → marks t = marks s →
      (t.conn.state_ = s.conn.state_ ∨ (s.conn.alive ∧ t.conn.alive)) → t.stack = s.stack →
      t.queue = s.queue → (t.hist.told, t.hist.closes, t.hist.closed, t.hist.removals) =
        (s.hist.told, s.hist.closes, s.hist.closed, s.hist.removals) → Ledger t := by
    intro t line same state stack queue entries
    simp only [marks, Prod.mk.injEq] at same entries
    obtain ⟨-, phase, -, -, -, home, introduced, owned, torn, -⟩ := same
    obtain ⟨told, closes, closed, removals⟩ := entries
    refine ledger_moved inv line state ?_ introduced owned torn home ?_ ?_ ?_
      (Nat.le_of_eq closes.symm) closed ?_
    · rw [destroyed, destroyed, removals, stack]
    · rw [queue]
      exact id
    · rw [told, stack]
    · rw [closes, stack]
    · rw [stack, torn, phase]
      exact inv.destroying
  cases asked with
  | shutdown up =>
    exact ⟨moved rfl rfl (Or.inr ⟨Or.inl up, Or.inr rfl⟩) rfl rfl rfl, by simp [Request.frame, Frame.plain]⟩
  | forceClose alive | forceCloseWithDelay alive =>
    exact ⟨moved rfl rfl (Or.inr ⟨alive, Or.inr rfl⟩) rfl rfl rfl, by simp [Request.frame, Frame.plain]⟩
  | send | startRead | stopRead | refused =>
    exact ⟨moved rfl rfl (Or.inl rfl) rfl rfl rfl, by simp [Request.frame, Frame.plain]⟩

theorem ledger_loopCall (inv : Ledger s) (asked : Asked s .loop c t r) :
    Ledger { t with stack := (r.map Request.frame).toList ++ t.stack } := by
  obtain ⟨kept, request⟩ := ledger_asked asked inv
  cases r with
  | none => exact kept
  | some q => exact ledger_put kept (request q rfl)

theorem ledger_pushFunctor (inv : Ledger s) (silent : f.lifeline = []) :
    Ledger (pushFunctor s f) := by
  refine ledger_moved inv ?_ (Or.inl rfl) rfl rfl rfl rfl rfl ?_ rfl rfl (Nat.le_refl _) rfl
    inv.destroying
  · simp [lifeline, pushFunctor, silent]
  · intro member
    simp only [pushFunctor, Batch.waiting_push, List.mem_append, List.mem_singleton] at member
    rcases member with old | rfl
    · exact old
    · cases silent

theorem ledger_introduce (inv : Ledger s) (fresh : s.introduced = false)
    (ran : OwnerRan { s with introduced := true } .connectEstablished t) : Ledger t := by
  obtain ⟨connecting, owned⟩ := inv.unborn fresh
  have line : lifeline s = [] := by
    rw [inv.line]
    simp [dueUp, dueDown, fresh, owned]
  have nowhere := List.append_eq_nil_iff.mp line
  cases ran with
  | here home top =>
    refine { inv with
      line := ?_, unborn := nofun, once := ?_, kept := ?_, told := ?_, closing := ?_, destroying := ?_ }
    · simp [lifeline, enter, nowhere.1, nowhere.2, Frame.lifeline, Functor.lifeline, connecting,
        owned, dueUp, dueDown]
    · simpa [destroyed, enter] using inv.once
    · simpa [destroyed, enter] using inv.kept
    · simpa [enter, Frame.tells] using inv.told
    · simpa [enter] using inv.closing
    · intro member
      simp only [enter, List.singleton_append, List.mem_cons] at member
      rcases member with impossible | old
      · cases impossible
      · exact inv.destroying old
  | away abroad =>
    refine { inv with line := ?_, unborn := nofun, homely := ?_ }
    · simp [lifeline, pushFunctor, nowhere.1, nowhere.2, Functor.lifeline, connecting, owned,
        dueUp, dueDown]
    · intro home
      rw [show s.home = false from abroad] at home
      cases home

theorem ledger_disowned (inv : Ledger s) (owned : s.owned = true) (born : s.introduced = true)
    (line : lifeline t = lifeline s ++ [.connectDestroyed]) (gone : destroyed t = destroyed s)
    (free : t.owned = false) (introduced : t.introduced = s.introduced) (home : t.home = s.home)
    (homely : .connectEstablished ∈ t.queue.waiting → .connectEstablished ∈ s.queue.waiting)
    (tells : t.stack.flatMap Frame.tells = s.stack.flatMap Frame.tells)
    (closes : t.stack.count .closeCallback = s.stack.count .closeCallback)
    (same : accounts t = accounts s) (torn : s.torn = true → t.torn = true)
    (cause : t.torn = true ∨ 0 < t.hist.closes)
    (destroying : .run .connectDestroyed ∈ t.stack → t.torn = true ∨ t.phase = .functors) :
    Ledger t := by
  simp only [accounts, Prod.mk.injEq] at same
  obtain ⟨state, told, closes', closed, -⟩ := same
  have none_yet := inv.kept owned
  constructor
  · rw [line, inv.line, introduced, state, gone]
    simp [dueDown, owned, free, none_yet]
  · intro unborn
    rw [introduced, born] at unborn
    cases unborn
  · rw [gone]
    exact inv.once
  · intro still
    rw [free] at still
    cases still
  · rw [home]
    intro same member
    exact inv.homely same (homely member)
  · rw [told, tells, state]
    exact inv.told
  · rw [closes, closes', closed]
    exact inv.closing
  · rw [closed, state]
    exact inv.closed_down
  · rw [closed, state]
    intro down
    exact (inv.down down).imp_right torn
  · intro _
    exact cause
  · exact destroying

theorem ledger_ownerRemoves (inv : Ledger s) (owned : s.owned = true) (closes : 0 < s.hist.closes) :
    Ledger (pushFunctor { s with owned := false } .connectDestroyed) := by
  have closed : s.hist.closed = true := by
    by_contra open_
    have closing := inv.closing
    rw [Bool.eq_false_iff.mpr open_, Bool.toNat_false] at closing
    omega
  have born : s.introduced = true := by
    by_contra unborn
    have connecting := (inv.unborn (by simpa using unborn)).1
    rw [inv.closed_down closed] at connecting
    cases connecting
  refine ledger_disowned inv owned born ?_ rfl rfl rfl rfl ?_ rfl rfl rfl id (Or.inr closes)
    inv.destroying
  · simp [lifeline, pushFunctor, Functor.lifeline]
  · intro member
    simpa [pushFunctor] using member

theorem ledger_ownerTearsDown (inv : Ledger s) (flow : Flow s) (owned : s.owned = true)
    (born : s.introduced = true)
    (ran : OwnerRan { s with owned := false, torn := true } .connectDestroyed t) : Ledger t := by
  cases ran with
  | here home top =>
    have rests := resting_silent (flow.all_resting top)
    have line : lifeline s = [] := by
      have line := inv.line
      simp only [dueUp, dueDown, owned, Bool.true_eq_false, false_and, if_false,
        List.append_nil] at line
      by_cases connecting : s.introduced = true ∧ s.conn.state_ = .kConnecting
      · exfalso
        rw [if_pos connecting, lifeline, rests.1, List.nil_append] at line
        have member : Functor.connectEstablished ∈ s.queue.waiting.flatMap Functor.lifeline := by
          rw [line]
          exact List.mem_singleton_self _
        obtain ⟨f, inside, same⟩ := List.mem_flatMap.mp member
        cases f <;> simp [Functor.lifeline] at same
        exact inv.homely home inside
      · rw [line, if_neg connecting]
    have nowhere := List.append_eq_nil_iff.mp line
    refine ledger_disowned inv owned born ?_ ?_ rfl rfl rfl id ?_ ?_ rfl (fun _ => rfl) (Or.inl rfl)
      (fun _ => Or.inl rfl)
    · rw [line]
      simp [lifeline, enter, nowhere.1, nowhere.2, Frame.lifeline, Functor.lifeline]
    · simp [destroyed, enter]
    · simp [enter, Frame.tells]
    · simp [enter]
  | away =>
    refine ledger_disowned inv owned born ?_ rfl rfl rfl rfl ?_ rfl rfl rfl (fun _ => rfl)
      (Or.inl rfl) (fun _ => Or.inl rfl)
    · simp [lifeline, pushFunctor, Functor.lifeline]
    · intro member
      simpa [pushFunctor] using member

theorem api_lifeline (api : f.api = true) : f.lifeline = [] := by
  cases f <;> first | rfl | cases api

theorem ledger_step (sound : s.conn.Sound) (flow : Flow s) (inv : Ledger s)
    (taken : step s l = some t) : Ledger t := by
  obtain ⟨-, stepped⟩ := stepped sound taken
  cases stepped with
  | threadCall _ asked =>
    obtain ⟨kept, -⟩ := ledger_asked asked inv
    exact { kept with }
  | @threadPush n f busy =>
    obtain ⟨returned, pushed⟩ := threadPush_eq s n f
    rw [pushed]
    have kept := ledger_pushFunctor inv (api_lifeline (flow.api n f busy))
    exact { kept with }
  | queueTask => exact ledger_pushFunctor inv rfl
  | introduce fresh ran => exact ledger_introduce inv fresh ran
  | ownerRemoves owned closes => exact ledger_ownerRemoves inv owned closes
  | ownerTearsDown owned born ran => exact ledger_ownerTearsDown inv flow owned born ran
  | pollNone _ empty | pollSome _ empty =>
    refine { inv with destroying := ?_ }
    simp [empty]
  | otherCode _ empty =>
    have kept : Ledger { s with current := false } := { inv with }
    exact ledger_put kept rfl
  | dispatch _ empty =>
    refine { inv with
      line := ?_, once := ?_, kept := ?_, told := ?_, closing := ?_, destroying := ?_ }
    · simpa [lifeline, destroyed, enter, empty, Frame.lifeline] using inv.line
    · simpa [destroyed, enter, empty] using inv.once
    · simpa [destroyed, enter, empty] using inv.kept
    · simpa [enter, empty, Frame.tells] using inv.told
    · simpa [enter, empty] using inv.closing
    · simp [enter, empty]
  | fireTimer _ _ _ asked =>
    have kept : Ledger { s with timers := s.timers - 1, current := false } := { inv with }
    exact ledger_loopCall kept asked
  | endHandling handling empty =>
    have idle := flow.batch (by rw [handling]; decide)
    refine { inv with line := ?_, homely := ?_, destroying := fun _ => Or.inr rfl }
    · have line := inv.line
      simp only [lifeline, Batch.waiting_swap idle] at line ⊢
      exact line
    · simpa only [Batch.waiting_swap idle] using inv.homely
  | @nextFunctor f q functors empty next =>
    have waiting := Batch.waiting_next next
    refine { inv with
      line := ?_, once := ?_, kept := ?_, homely := ?_, told := ?_, closing := ?_
      destroying := fun _ => Or.inr functors }
    · have line := inv.line
      simp only [lifeline, destroyed, empty, waiting, List.flatMap_nil, List.flatMap_cons,
        List.nil_append] at line
      simpa [lifeline, destroyed, enter, empty, Frame.lifeline] using line
    · simpa [destroyed, enter, empty] using inv.once
    · simpa [destroyed, enter, empty] using inv.kept
    · intro home member
      exact inv.homely home (by rw [waiting]; exact List.mem_cons_of_mem _ member)
    · simpa [enter, empty, Frame.tells] using inv.told
    · simpa [enter, empty] using inv.closing
  | endFunctors _ empty =>
    refine { inv with destroying := ?_ }
    simp [empty]
  | call _ asked => exact ledger_loopCall inv asked
  | ret top =>
    refine ledger_moved inv ?_ (Or.inl rfl) ?_ rfl rfl rfl rfl id ?_ ?_ (Nat.le_refl _) rfl ?_
    · simp [lifeline, top, Frame.lifeline]
    · simp [destroyed, top]
    · simp [top, Frame.tells]
    · simp [top]
    · intro member
      exact inv.destroying (by rw [top]; exact List.mem_cons_of_mem _ member)
  | exec top did => exact ledger_exec inv flow top did
  | failed => exact { inv with }

/-- The invariants of every run. -/
structure Lawful (s : State) : Prop where
  sound : s.conn.Sound
  flow : Flow s
  ledger : Ledger s

theorem lawful_init (setup : Setup) : Lawful (init setup) :=
  ⟨sound_init setup, flow_init setup, ledger_init setup⟩

theorem lawful_step (inv : Lawful s) (taken : step s l = some t) : Lawful t :=
  ⟨sound_step inv.sound taken, flow_step inv.sound inv.flow taken,
    ledger_step inv.sound inv.flow inv.ledger taken⟩

/-- A frame that a step other than the execution of one can put on the stack. -/
def Frame.entry : Frame → Bool
  | .connectionCallback _ | .closeCallback | .removeChannel => false
  | _ => true

inductive Restacked (s : State) (l : Label) (t : State) : Prop where
  | put {pushed : List Frame} (stack : t.stack = pushed ++ s.stack)
      (entries : ∀ frame ∈ pushed, frame.entry = true) (removals : t.hist.removals = s.hist.removals)
  | returned (stack : s.stack = .userCode :: t.stack) (removals : t.hist.removals = s.hist.removals)
  | executed {w : WriteResult} {r : ReadResult} {frame : Frame} {rest : List Frame}
      (label : l = .exec w r) (top : s.stack = frame :: rest)
      (did : Did { s with stack := rest } frame t)

theorem asked_entry (asked : Asked s caller c t r) :
    t.stack = s.stack ∧ t.hist.removals = s.hist.removals ∧
      ∀ frame ∈ (r.map Request.frame).toList, frame.entry = true := by
  cases asked <;> simp [Request.frame, Frame.entry]

theorem ownerRan_restacked (ran : OwnerRan s f t) :
    ∃ pushed, t.stack = pushed ++ s.stack ∧ (∀ frame ∈ pushed, frame.entry = true) ∧
      t.hist.removals = s.hist.removals := by
  cases ran with
  | here => exact ⟨[.run f], rfl, by simp [Frame.entry], rfl⟩
  | away => exact ⟨[], rfl, by simp, rfl⟩

theorem Restacked.quiet (stack : t.stack = s.stack) (removals : t.hist.removals = s.hist.removals) :
    Restacked s l t := by
  have below : t.stack = [] ++ s.stack := stack
  exact .put below (by simp) removals

theorem restacked (sound : s.conn.Sound) (taken : step s l = some t) :
    Restacked s l t := by
  obtain ⟨-, stepped⟩ := stepped sound taken
  cases stepped with
  | threadCall _ asked =>
    obtain ⟨stack, removals, -⟩ := asked_entry asked
    exact .quiet stack removals
  | @threadPush n f _ =>
    obtain ⟨returned, pushed⟩ := threadPush_eq s n f
    rw [pushed]
    exact .quiet rfl rfl
  | introduce _ ran | ownerTearsDown _ _ ran =>
    obtain ⟨pushed, stack, entries, removals⟩ := ownerRan_restacked ran
    exact .put stack entries removals
  | fireTimer _ _ _ asked | call _ asked =>
    obtain ⟨stack, removals, entries⟩ := asked_entry asked
    exact .put (by rw [stack]) entries removals
  | otherCode | dispatch | nextFunctor => exact .put rfl (by simp [Frame.entry]) rfl
  | ret top => exact .returned top rfl
  | exec top did => exact .executed rfl top did
  | queueTask | ownerRemoves | pollNone | pollSome | endHandling | endFunctors | failed =>
    exact .quiet rfl rfl
end TcpConnection
end Muduo
