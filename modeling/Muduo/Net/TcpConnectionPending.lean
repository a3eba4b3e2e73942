import Muduo.Net.TcpConnectionShutdown

/-!
The shutdownInLoop of a shutdown(), from the call to the moment it runs: it is with the thread
that has called, in the queue or on the stack. shutdown() finds kConnected at most once, so
there is never a second one.
-/
namespace Muduo
open Lib
namespace TcpConnection
variable {s t : State} {l : Label}

/-- A shutdownInLoop is under way: with a thread, in the queue or on the stack. -/
def ShutdownPending (s : State) : Prop :=
  (∃ n, s.threads n = some .shutdownInLoop) ∨ .shutdownInLoop ∈ s.queue.waiting ∨
    .run .shutdownInLoop ∈ s.stack

inductive Passes (s : State) (l : Label) (t : State) : Prop where
  | stays (threads : ∀ n, t.threads n = some .shutdownInLoop ↔ s.threads n = some .shutdownInLoop)
      (queue : t.queue.waiting.count .shutdownInLoop = s.queue.waiting.count .shutdownInLoop)
      (stack : .run .shutdownInLoop ∈ t.stack ↔ .run .shutdownInLoop ∈ s.stack)
  | enters (up : s.conn.state_ = .kConnected) (closing : t.conn.state_ = .kDisconnecting)
      (other : l.isExec = false) (queue : t.queue = s.queue)
      (place : (∃ n, t.threads = Function.update s.threads n (some .shutdownInLoop) ∧
          t.stack = s.stack) ∨
        (t.threads = s.threads ∧ t.stack = .run .shutdownInLoop :: s.stack))
  | pushed {n : Nat} (busy : s.threads n = some .shutdownInLoop)
      (threads : t.threads = Function.update s.threads n none)
      (queue : t.queue.waiting = s.queue.waiting ++ [.shutdownInLoop]) (stack : t.stack = s.stack)
  | popped (threads : t.threads = s.threads)
      (queue : s.queue.waiting = .shutdownInLoop :: t.queue.waiting) (before : s.stack = [])
      (stack : t.stack = [.run .shutdownInLoop])
  | ran (executes : l.isExec = true) (top : s.stack.head? = some (.run .shutdownInLoop))
      (threads : t.threads = s.threads)
      (queue : t.queue.waiting.count .shutdownInLoop = s.queue.waiting.count .shutdownInLoop)
      (gone : .run .shutdownInLoop ∉ t.stack)

theorem update_iff {threads : Nat → Option Functor} {n : Nat} {o : Option Functor}
    (before : threads n ≠ some .shutdownInLoop) (after : o ≠ some .shutdownInLoop) (k : Nat) :
    Function.update threads n o k = some .shutdownInLoop ↔ threads k = some .shutdownInLoop := by
  by_cases same : k = n
  · subst same
    simp [before, after]
  · rw [Function.update_of_ne same]

theorem passes_push {f : Functor} (other : f ≠ .shutdownInLoop) (threads : t.threads = s.threads)
    (queue : t.queue.waiting = s.queue.waiting ++ [f]) (stack : t.stack = s.stack) :
    Passes s l t := by
  refine .stays (fun n => by rw [threads]) ?_ (by rw [stack])
  rw [queue, List.count_append, List.count_singleton, if_neg (by simpa using other), Nat.add_zero]

theorem passes_enter (frames : List Frame) (other : .run .shutdownInLoop ∉ frames)
    (threads : t.threads = s.threads) (queue : t.queue = s.queue)
    (stack : t.stack = frames ++ s.stack) : Passes s l t := by
  refine .stays (fun n => by rw [threads]) (by rw [queue]) ?_
  rw [stack, List.mem_append]
  exact or_iff_right other

theorem passes_ownerRan {u : State} {f : Functor} (ran : OwnerRan u f t)
    (other : f ≠ .shutdownInLoop) (threads : u.threads = s.threads) (queue : u.queue = s.queue)
    (stack : u.stack = s.stack) : Passes s l t := by
  cases ran with
  | here =>
    have quiet : .run .shutdownInLoop ∉ [Frame.run f] := by simpa using Ne.symm other
    exact passes_enter _ quiet threads queue (by rw [← stack]; rfl)
  | away => exact passes_push other threads (by rw [← queue]; exact Batch.waiting_push _ _) stack

theorem asked_shutdown {caller : Caller} {c : Call} {r : Option Request}
    (asked : Asked s caller c t r) :
    (r = some (.runInLoop .shutdownInLoop) ∧ s.conn.state_ = .kConnected ∧
        t.conn.state_ = .kDisconnecting) ∨
      (r.map Request.functor ≠ some .shutdownInLoop ∧
        .run .shutdownInLoop ∉ (r.map Request.frame).toList) := by
  cases asked with
  | shutdown up => exact Or.inl ⟨rfl, up, rfl⟩
  | _ => simp [Request.functor, Request.frame]

theorem passes_loopCall {u : State} {c : Call} {r : Option Request}
    (asked : Asked u .loop c t r) (other : l.isExec = false) (state : u.conn = s.conn)
    (threads : u.threads = s.threads) (queue : u.queue = s.queue) (stack : u.stack = s.stack) :
    Passes s l { t with stack := (r.map Request.frame).toList ++ t.stack } := by
  have entered := asked_entered asked
  rcases asked_shutdown asked with ⟨rfl, up, closing⟩ | ⟨-, quiet⟩
  · refine .enters (state ▸ up) closing other (entered.queue.trans queue) (Or.inr ⟨?_, ?_⟩)
    · exact entered.threads.trans threads
    · show .run .shutdownInLoop :: t.stack = _
      rw [entered.stack, stack]
  · refine passes_enter _ quiet (entered.threads.trans threads) (entered.queue.trans queue) ?_
    rw [← stack, ← entered.stack]

theorem passes_exec {frame : Frame} {rest : List Frame} (lawful : Lawful s)
    (executes : l.isExec = true) (top : s.stack = frame :: rest)
    (did : Did { s with stack := rest } frame t) : Passes s l t := by
  obtain ⟨pushed, executed, leaves⟩ := did_executed did
  obtain ⟨fs, waiting, foreign⟩ := executed.queued
  have no_runs := (executed_accounts lawful.flow top executed (leaves_tame leaves)).2.2.2.2
  have queue : t.queue.waiting.count .shutdownInLoop = s.queue.waiting.count .shutdownInLoop := by
    have other : .shutdownInLoop ∉ fs := by
      intro new
      rcases foreign _ new with (impossible | ⟨n, impossible⟩) | impossible <;> cases impossible
    rw [waiting, List.count_append, List.count_eq_zero_of_not_mem other, Nat.add_zero]
  by_cases same : frame = .run .shutdownInLoop
  · exact .ran executes (by rw [top, same]; rfl) executed.threads queue (no_runs _)
  · refine .stays (fun n => by rw [executed.threads]) queue ?_
    have below := (resting_silent (lawful.flow.below top)).2.2 .shutdownInLoop
    have before : .run .shutdownInLoop ∉ s.stack := by
      rw [top, List.mem_cons, not_or]
      exact ⟨Ne.symm same, below⟩
    exact iff_of_false (no_runs _) before

theorem passes_step (lawful : Lawful s) (taken : step s l = some t) : Passes s l t := by
  obtain ⟨-, stepped⟩ := stepped lawful.sound taken
  cases stepped with
  | @threadCall n c t r idle asked =>
    have entered := asked_entered asked
    rcases asked_shutdown asked with ⟨rfl, up, closing⟩ | ⟨quiet, -⟩
    · exact .enters up closing rfl entered.queue (Or.inl ⟨n, rfl, entered.stack⟩)
    · exact .stays (update_iff (by rw [idle]; nofun) quiet) (by rw [entered.queue])
        (by rw [entered.stack])
  | @threadPush n f busy =>
    obtain ⟨returned, pushed⟩ := threadPush_eq s n f
    rw [pushed]
    by_cases same : f = .shutdownInLoop
    · subst same
      exact .pushed busy rfl (Batch.waiting_push _ _) rfl
    · refine .stays (update_iff ?_ nofun) ?_ Iff.rfl
      · rw [busy]
        simpa using same
      · rw [Batch.waiting_push, List.count_append, List.count_singleton,
          if_neg (by simpa using same), Nat.add_zero]
  | queueTask => exact passes_push (f := .task) nofun rfl (Batch.waiting_push _ _) rfl
  | ownerRemoves =>
    exact passes_push (f := .connectDestroyed) nofun rfl (Batch.waiting_push _ _) rfl
  | introduce _ ran | ownerTearsDown _ _ ran => exact passes_ownerRan ran nofun rfl rfl rfl
  | otherCode => exact passes_enter [.userCode] (by simp) rfl rfl rfl
  | dispatch =>
    exact passes_enter [.hangUpTest, .errorTest, .readTest, .writeTest, .eventDone] (by simp) rfl
      rfl rfl
  | fireTimer _ _ _ asked | call _ asked => exact passes_loopCall asked rfl rfl rfl rfl rfl
  | endHandling handling _ _ =>
    have idle := lawful.flow.batch (by rw [handling]; decide)
    exact .stays (fun _ => Iff.rfl) (by rw [Batch.waiting_swap idle]) Iff.rfl
  | @nextFunctor f q _ empty next =>
    have waiting := Batch.waiting_next next
    by_cases same : f = .shutdownInLoop
    · subst same
      exact .popped rfl waiting empty (by simp [enter, empty])
    · refine .stays (fun _ => Iff.rfl) ?_ ?_
      · rw [waiting, List.count_cons, if_neg (by simpa using same), Nat.add_zero]
        rfl
      · simp [enter, empty, Ne.symm same]
  | ret top => exact .stays (fun _ => Iff.rfl) rfl (by rw [top]; simp)
  | exec top did => exact passes_exec lawful rfl top did
  | pollNone | pollSome | endFunctors | failed => exact .stays (fun _ => Iff.rfl) rfl Iff.rfl

theorem pending_congr
    (threads : ∀ n, t.threads n = some .shutdownInLoop ↔ s.threads n = some .shutdownInLoop)
    (queue : t.queue.waiting.count .shutdownInLoop = s.queue.waiting.count .shutdownInLoop)
    (stack : .run .shutdownInLoop ∈ t.stack ↔ .run .shutdownInLoop ∈ s.stack) :
    ShutdownPending t ↔ ShutdownPending s := by
  simp only [ShutdownPending, threads, stack]
  rw [← List.count_pos_iff, queue, List.count_pos_iff]

theorem Passes.pending (passes : Passes s l t) (pending : ShutdownPending s) :
    ShutdownPending t ∨ (l.isExec = true ∧ s.stack.head? = some (.run .shutdownInLoop)) := by
  cases passes with
  | stays threads queue stack => exact Or.inl ((pending_congr threads queue stack).mpr pending)
  | enters _ _ _ _ place =>
    refine Or.inl ?_
    rcases place with ⟨n, threads, -⟩ | ⟨-, stack⟩
    · exact Or.inl ⟨n, by rw [threads, Function.update_self]⟩
    · exact Or.inr (Or.inr (by rw [stack]; exact List.mem_cons_self))
  | pushed _ _ queue => exact Or.inl (Or.inr (Or.inl (by rw [queue]; simp)))
  | popped _ _ _ stack => exact Or.inl (Or.inr (Or.inr (by rw [stack]; simp)))
  | ran executes top => exact Or.inr ⟨executes, top⟩

theorem Passes.before (passes : Passes s l t) (pending : ShutdownPending t) :
    ShutdownPending s ∨ (s.conn.state_ = .kConnected ∧ t.conn.state_ = .kDisconnecting ∧
      l.isExec = false) := by
  cases passes with
  | stays threads queue stack => exact Or.inl ((pending_congr threads queue stack).mp pending)
  | enters up closing other => exact Or.inr ⟨up, closing, other⟩
  | pushed busy => exact Or.inl (Or.inl ⟨_, busy⟩)
  | popped _ queue => exact Or.inl (Or.inr (Or.inl (by rw [queue]; exact List.mem_cons_self)))
  | ran _ top => exact Or.inl (Or.inr (Or.inr (List.mem_of_head? top)))

structure Alone (s : State) : Prop where
  threads : ∀ n m, s.threads n = some .shutdownInLoop → s.threads m = some .shutdownInLoop → n = m
  handed : ∀ n, s.threads n = some .shutdownInLoop →
    s.queue.waiting.count .shutdownInLoop = 0 ∧ .run .shutdownInLoop ∉ s.stack
  queued : s.queue.waiting.count .shutdownInLoop ≤ 1
  running : .run .shutdownInLoop ∈ s.stack → s.queue.waiting.count .shutdownInLoop = 0

theorem alone_init (setup : Setup) : Alone (init setup) := by
  constructor <;> simp [init]

theorem alone_of_nobody (nobody : ∀ n, s.threads n ≠ some .shutdownInLoop)
    (queued : s.queue.waiting.count .shutdownInLoop ≤ 1)
    (running : .run .shutdownInLoop ∈ s.stack → s.queue.waiting.count .shutdownInLoop = 0) :
    Alone s :=
  ⟨fun n _ there => absurd there (nobody n), fun n there => absurd there (nobody n), queued, running⟩

theorem alone_step (lawful : Lawful s) (fifo : Fifo s) (inv : Alone s)
    (taken : step s l = some t) : Alone t := by
  cases passes_step lawful taken with
  | stays threads queue stack =>
    constructor
    · intro n m first second
      exact inv.threads n m ((threads n).mp first) ((threads m).mp second)
    · intro n there
      rw [queue, stack]
      exact inv.handed n ((threads n).mp there)
    · rw [queue]
      exact inv.queued
    · rw [queue, stack]
      exact inv.running
  | enters up _ _ queue place =>
    obtain ⟨not_queued, not_running, not_asked⟩ := fifo.early (Or.inr up)
    have none_ := List.count_eq_zero_of_not_mem not_queued
    rcases place with ⟨k, threads, stack⟩ | ⟨threads, stack⟩
    · have only : ∀ n, t.threads n = some .shutdownInLoop → n = k := by
        intro n there
        by_contra other
        rw [threads, Function.update_of_ne other] at there
        exact not_asked n there
      refine ⟨fun n m first second => (only n first).trans (only m second).symm, ?_, ?_, ?_⟩
      · intro n _
        rw [queue, stack]
        exact ⟨none_, not_running⟩
      · rw [queue, none_]
        exact Nat.zero_le 1
      · intro _
        rw [queue, none_]
    · rw [← queue] at none_
      exact alone_of_nobody (threads ▸ not_asked) (none_.symm ▸ Nat.zero_le 1) fun _ => none_
  | @pushed k busy threads queue stack =>
    obtain ⟨none_, not_running⟩ := inv.handed k busy
    have nobody : ∀ n, t.threads n ≠ some .shutdownInLoop := by
      intro n there
      rw [threads] at there
      by_cases same : n = k
      · subst same
        simp at there
      · rw [Function.update_of_ne same] at there
        exact same (inv.threads n k there busy)
    refine alone_of_nobody nobody ?_ ?_
    · rw [queue, List.count_append, none_]
      simp
    · rw [stack]
      exact fun running => absurd running not_running
  | popped threads queue =>
    have single := inv.queued
    rw [queue, List.count_cons_self] at single
    have nobody : ∀ n, t.threads n ≠ some .shutdownInLoop := by
      intro n there
      rw [threads] at there
      have none_ := (inv.handed n there).1
      rw [queue, List.count_cons_self] at none_
      omega
    exact alone_of_nobody nobody (by omega) fun _ => by omega
  | ran _ _ threads queue gone =>
    refine ⟨threads ▸ inv.threads, ?_, queue ▸ inv.queued, fun running => absurd running gone⟩
    intro n there
    rw [queue]
    rw [threads] at there
    exact ⟨(inv.handed n there).1, gone⟩

theorem Passes.done (passes : Passes s l t) (inv : Alone s) (here : .run .shutdownInLoop ∈ s.stack)
    (gone : .run .shutdownInLoop ∉ t.stack) : ¬ShutdownPending t := by
  cases passes with
  | stays _ _ stack => exact absurd (stack.mpr here) gone
  | enters _ _ _ _ place =>
    rcases place with ⟨n, -, stack⟩ | ⟨-, stack⟩
    · exact absurd (stack ▸ here) gone
    · exact absurd (by rw [stack]; exact List.mem_cons_self) gone
  | pushed _ _ _ stack => exact absurd (stack ▸ here) gone
  | popped _ _ before =>
    rw [before] at here
    cases here
  | ran _ _ threads queue =>
    rintro (⟨n, thread⟩ | queued | stacked)
    · rw [threads] at thread
      exact (inv.handed n thread).2 here
    · have counted := List.count_pos_iff.mpr queued
      rw [queue, inv.running here] at counted
      cases counted
    · exact gone stacked

end TcpConnection
end Muduo
