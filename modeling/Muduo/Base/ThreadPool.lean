import Muduo.Lib.Monitor

/-!
ThreadPool. run() and take() are critical sections of one monitor and stop() ends
both waits; around them each worker tests running_ without the mutex, takes a task
and runs it. The results are about the monitor, whatever the workers do between
their calls, and carry over to the pool because every run of the pool is a run of
its monitor with steps of the workers in between.
-/
namespace Muduo
open Lib
namespace ThreadPool
open Monitor (Attempt Waiter)
variable {α : Type}

abbrev Task (α : Type) := Option α

inductive Cond where
  | notEmpty_
  | notFull_
  deriving DecidableEq, Repr

structure Shared (α : Type) where
  queue_ : List (Task α)
  running_ : Bool

inductive Call (α : Type) where
  | run (task : Task α)
  | take
  | stop
  | queueSize

/-- `refused` is run() after stop(), `empty` the task that take() makes up when it finds
    none. -/
inductive Returned (α : Type) where
  | accepted
  | refused
  | front (task : Task α)
  | empty
  | stopped
  | number (n : Nat)

variable (maxQueueSize_ : Nat)

def isFull (s : Shared α) : Bool := 0 < maxQueueSize_ && maxQueueSize_ ≤ s.queue_.length

def run (task : Task α) (s : Shared α) : Attempt (Shared α) Cond (Returned α) :=
  if isFull maxQueueSize_ s && s.running_ then .wait .notFull_
  else if s.running_ = false then .done s .refused []
  else .ofChecked do
    assertThat (isFull maxQueueSize_ s = false) "!isFull()"
    pure ({ s with queue_ := s.queue_ ++ [task] }, .accepted, [.notify .notEmpty_])

def take (s : Shared α) : Attempt (Shared α) Cond (Returned α) :=
  if s.queue_.isEmpty && s.running_ then .wait .notEmpty_
  else match s.queue_ with
    | [] => .done s .empty []
    | task :: rest =>
      .done { s with queue_ := rest } (.front task)
        (if 0 < maxQueueSize_ then [.notify .notFull_] else [])

def stop (s : Shared α) : Attempt (Shared α) Cond (Returned α) :=
  .done { s with running_ := false } .stopped [.notifyAll .notEmpty_, .notifyAll .notFull_]

def monitor (α : Type) : Monitor (Shared α) (Call α) Cond (Returned α) where
  attempt call s :=
    match call with
    | .run task => run maxQueueSize_ task s
    | .take => take maxQueueSize_ s
    | .stop => stop s
    | .queueSize => .done s (.number s.queue_.length) []

inductive Thread where
  | worker (i : Nat)
  | other (n : Nat)
  deriving DecidableEq, Repr

inductive Phase (α : Type) where
  | testing
  | taking
  | running (task : α)
  | finished

def Phase.isTaking : Phase α → Bool
  | .taking => true
  | _ => false

def Phase.isRunning : Phase α → Bool
  | .running _ => true
  | _ => false

def Phase.isFinished : Phase α → Bool
  | .finished => true
  | _ => false

structure Pool where
  maxQueueSize_ : Nat
  numThreads : Nat

structure State (α : Type) where
  monitor : Monitor.State Thread (Shared α) (Call α) Cond (Returned α)
  phase : Nat → Phase α
  /-- What run() has called itself, for want of threads. -/
  direct : List (Task α)
  joined : Bool

inductive Label (α : Type) where
  | monitor (l : Monitor.Label Thread (Call α) Cond)
  | test (i : Nat)
  | finish (i : Nat)
  | runDirectly (task : Task α)
  | join

namespace Pool

def start (pool : Pool) : State α :=
  ⟨Monitor.init ⟨[], true⟩, fun i => if i < pool.numThreads then .testing else .finished, [], false⟩

/-- A worker calls take() in its loop; a task may call run() in turn. -/
def mayCall (pool : Pool) (s : State α) (t : Thread) : Call α → Bool
  | .take =>
    match t with
    | .worker i => (s.phase i).isTaking
    | .other _ => false
  | .run _ => 0 < pool.numThreads &&
    match t with
    | .worker i => (s.phase i).isRunning
    | .other _ => true
  | .stop | .queueSize =>
    match t with
    | .worker _ => false
    | .other _ => true

def mayStep (pool : Pool) (s : State α) : Monitor.Label Thread (Call α) Cond → Bool
  | .call w _ => pool.mayCall s w.thread w.call
  | _ => true

/-- The worker whose take() has completed runs its task, unless that is empty. -/
def goOn (phase : Nat → Phase α) :
    List (Waiter Thread (Call α) × Returned α) → Nat → Phase α
  | [(⟨.worker i, .take⟩, .front (some task))] => Function.update phase i (.running task)
  | [(⟨.worker i, .take⟩, _)] => Function.update phase i .testing
  | _ => phase

def step (pool : Pool) (s : State α) : Label α → Option (State α)
  | .monitor l =>
    if pool.mayStep s l then
      ((ThreadPool.monitor pool.maxQueueSize_ α).step s.monitor l).map fun m =>
        { s with
          monitor := m
          phase := goOn s.phase (m.history.drop s.monitor.history.length) }
    else none
  | .test i =>
    match s.phase i with
    | .testing =>
      let next := if s.monitor.shared.running_ then .taking else .finished
      some { s with phase := Function.update s.phase i next }
    | _ => none
  | .finish i =>
    if (s.phase i).isRunning && !s.monitor.inside (.worker i) then
      some { s with phase := Function.update s.phase i .testing }
    else none
  | .runDirectly task =>
    if pool.numThreads = 0 then some { s with direct := s.direct ++ [task] } else none
  | .join =>
    if s.monitor.shared.running_ = false ∧
        (List.range pool.numThreads).all (fun i => (s.phase i).isFinished) then
      some { s with joined := true }
    else none

def machine (pool : Pool) (α : Type) : Machine (State α) (Label α) := ⟨pool.step⟩

end Pool

inductive Attempted (s : Shared α) : Call α → Attempt (Shared α) Cond (Returned α) → Prop where
  | runWaits {task : Task α} (running : s.running_ = true) :
      Attempted s (.run task) (.wait .notFull_)
  | refused {task : Task α} (stopped : s.running_ = false) :
      Attempted s (.run task) (.done s .refused [])
  | accepted {task : Task α} (running : s.running_ = true)
      (room : 0 < maxQueueSize_ → s.queue_.length < maxQueueSize_) :
      Attempted s (.run task)
        (.done { s with queue_ := s.queue_ ++ [task] } .accepted [.notify .notEmpty_])
  | takeWaits (running : s.running_ = true) : Attempted s .take (.wait .notEmpty_)
  | empty (stopped : s.running_ = false) (none : s.queue_ = []) :
      Attempted s .take (.done s .empty [])
  | front {task : Task α} {rest : List (Task α)} {signals : List (Monitor.Signal Cond)}
      (front : s.queue_ = task :: rest) :
      Attempted s .take (.done { s with queue_ := rest } (.front task) signals)
  | stop : Attempted s .stop
      (.done { s with running_ := false } .stopped [.notifyAll .notEmpty_, .notifyAll .notFull_])
  | queueSize : Attempted s .queueSize (.done s (.number s.queue_.length) [])

variable {maxQueueSize_}

theorem run_attempted (task : Task α) (s : Shared α) :
    Attempted maxQueueSize_ s (.run task) (run maxQueueSize_ task s) := by
  unfold run
  split
  · rename_i both
    exact Attempted.runWaits (Bool.and_eq_true_iff.mp both).2
  · rename_i awake
    split
    · exact Attempted.refused ‹_›
    · rename_i running
      have running : s.running_ = true := by simpa using running
      have room : isFull maxQueueSize_ s = false := by simpa [running] using awake
      simp only [assertThat_of_true room, ok_bind, pure_eq_ok, Attempt.ofChecked]
      refine Attempted.accepted running ?_
      intro bounded
      simpa [isFull, bounded] using room

theorem take_attempted (s : Shared α) :
    Attempted maxQueueSize_ s .take (take maxQueueSize_ s) := by
  unfold take
  split
  · rename_i both
    exact Attempted.takeWaits (Bool.and_eq_true_iff.mp both).2
  · rename_i awake
    split
    · rename_i none
      exact Attempted.empty (by simpa [none] using awake) none
    · exact Attempted.front ‹_›

variable (maxQueueSize_) in
theorem attempted (call : Call α) (s : Shared α) :
    Attempted maxQueueSize_ s call ((monitor maxQueueSize_ α).attempt call s) := by
  cases call with
  | run task => exact run_attempted task s
  | take => exact take_attempted s
  | stop => exact Attempted.stop
  | queueSize => exact Attempted.queueSize

abbrev History (α : Type) := List (Waiter Thread (Call α) × Returned α)

def acceptedTask : Waiter Thread (Call α) × Returned α → Option (Task α)
  | (⟨_, .run task⟩, .accepted) => some task
  | _ => none

def handedTask : Waiter Thread (Call α) × Returned α → Option (Task α)
  | (_, .front task) => some task
  | _ => none

def accepted (history : History α) : List (Task α) := history.filterMap acceptedTask

def handed (history : History α) : List (Task α) := history.filterMap handedTask

theorem accepted_append (history : History α) (e : Waiter Thread (Call α) × Returned α) :
    accepted (history ++ [e]) = accepted history ++ (acceptedTask e).toList := by
  cases task : acceptedTask e <;> simp [accepted, task]

theorem handed_append (history : History α) (e : Waiter Thread (Call α) × Returned α) :
    handed (history ++ [e]) = handed history ++ (handedTask e).toList := by
  cases task : handedTask e <;> simp [handed, task]

structure Ordered (maxQueueSize_ : Nat) (s : Shared α) (history : History α) : Prop where
  order : handed history ++ s.queue_ = accepted history
  bounded : 0 < maxQueueSize_ → s.queue_.length ≤ maxQueueSize_

variable {w : Waiter Thread (Call α)} {s t : Shared α} {result : Returned α}
  {signals : List (Monitor.Signal Cond)} {history : History α}

theorem ordered_kept (inv : Ordered maxQueueSize_ s history)
    (done : (monitor maxQueueSize_ α).attempt w.call s = .done t result signals) :
    Ordered maxQueueSize_ t (history ++ [(w, result)]) := by
  obtain ⟨thread, call⟩ := w
  have outcome := attempted maxQueueSize_ call s
  rw [done] at outcome
  obtain ⟨order, bounded⟩ := inv
  cases outcome with
  | accepted _ room =>
    refine ⟨?_, ?_⟩
    · rw [accepted_append, handed_append, ← order]
      simp [acceptedTask, handedTask]
    · intro positive
      have below := room positive
      simp only [List.length_append, List.length_singleton]
      omega
  | front front =>
    rw [front] at order bounded
    refine ⟨?_, ?_⟩
    · rw [accepted_append, handed_append, ← order]
      simp [acceptedTask, handedTask]
    · intro positive
      exact Nat.le_of_succ_le (bounded positive)
  | refused | empty | stop | queueSize =>
    refine ⟨?_, bounded⟩
    rw [accepted_append, handed_append, ← order]
    simp [acceptedTask, handedTask]

theorem attempt_safe (call : Call α) (s : Shared α) (message : String) :
    (monitor maxQueueSize_ α).attempt call s ≠ .failed message := by
  intro failed
  have outcome := attempted maxQueueSize_ call s
  rw [failed] at outcome
  cases outcome

theorem stopped_kept (history : History α) (stopped : s.running_ = false)
    (done : (monitor maxQueueSize_ α).attempt w.call s = .done t result signals) :
    t.running_ = false ∧ accepted (history ++ [(w, result)]) = accepted history := by
  obtain ⟨thread, call⟩ := w
  have outcome := attempted maxQueueSize_ call s
  rw [done] at outcome
  rw [accepted_append]
  cases outcome with
  | accepted running =>
    rw [stopped] at running
    cases running
  | stop => exact ⟨rfl, by simp [acceptedTask]⟩
  | refused | empty | front | queueSize => exact ⟨stopped, by simp [acceptedTask]⟩

theorem stopped_released {c : Cond} {m n : Monitor.State Thread (Shared α) (Call α) Cond (Returned α)}
    {l : Monitor.Label Thread (Call α) Cond}
    (released : m.shared.running_ = false → m.waiting c = [])
    (taken : (monitor maxQueueSize_ α).step m l = some n) :
    n.shared.running_ = false → n.waiting c = [] := by
  have waits : ∀ call s, (monitor maxQueueSize_ α).attempt call s = .wait c →
      ¬s.running_ = false := by
    intro call s waits stopped
    have outcome := attempted maxQueueSize_ call s
    rw [waits] at outcome
    cases outcome with
    | runWaits running | takeWaits running =>
      rw [stopped] at running
      cases running
  have broadcast : ∀ call s t result signals,
      (monitor maxQueueSize_ α).attempt call s = .done t result signals → t.running_ = false →
        s.running_ = false ∨ .notifyAll c ∈ signals := by
    intro call s t result signals done stopped
    have outcome := attempted maxQueueSize_ call s
    rw [done] at outcome
    cases outcome with
    | stop => exact Or.inr (by cases c <;> simp)
    | refused | accepted | empty | front | queueSize => exact Or.inl stopped
  exact Monitor.released_step waits broadcast released taken

namespace Pool
variable {pool : Pool} {s t : State α} {ls : List (Label α)}

theorem step_monitor {l : Label α} (taken : pool.step s l = some t) :
    t.monitor = s.monitor ∨
      ∃ k, (ThreadPool.monitor pool.maxQueueSize_ α).step s.monitor k = some t.monitor := by
  cases l with
  | monitor k =>
    simp only [step] at taken
    split at taken
    · obtain ⟨m, moved, rfl⟩ := Option.map_eq_some_iff.mp taken
      exact Or.inr ⟨k, moved⟩
    · cases taken
  | test i | finish i | runDirectly task | join =>
    simp only [step] at taken
    split at taken
    · cases taken
      exact Or.inl rfl
    · cases taken

theorem run_monitor (inv : Monitor.State Thread (Shared α) (Call α) Cond (Returned α) → Prop)
    (kept : ∀ m l n, inv m → (ThreadPool.monitor pool.maxQueueSize_ α).step m l = some n → inv n)
    (start : inv s.monitor) (ran : (pool.machine α).run s ls = some t) :
    inv t.monitor := by
  let held := fun s : State α => inv s.monitor
  have through : ∀ s l t, held s → (pool.machine α).step s l = some t → held t := by
    intro s l t before taken
    rcases step_monitor taken with same | ⟨k, moved⟩
    · unfold held
      rw [same]
      exact before
    · exact kept _ k _ before moved
  have start : held s := start
  exact (pool.machine α).run_invariant through start ran

structure Orderly (pool : Pool) (m : Monitor.State Thread (Shared α) (Call α) Cond (Returned α)) :
    Prop where
  ordered : Ordered pool.maxQueueSize_ m.shared m.history
  sane : m.failure = none
  released : m.shared.running_ = false → ∀ c, m.waiting c = []

theorem orderly_run (inv : pool.Orderly s.monitor) (ran : (pool.machine α).run s ls = some t) :
    pool.Orderly t.monitor := by
  refine run_monitor pool.Orderly ?_ inv ran
  intro m l n inv taken
  refine ⟨?_, ?_, ?_⟩
  · exact Monitor.history_step (fun _ _ _ _ _ _ inv done => ordered_kept inv done) inv.ordered taken
  · exact Monitor.failure_step (fun call s _ message _ => attempt_safe call s message)
      inv.ordered taken
  · intro stopped c
    exact stopped_released (fun before => inv.released before c) taken stopped

theorem orderly_start (pool : Pool) : pool.Orderly (pool.start : State α).monitor := by
  refine ⟨⟨rfl, fun _ => Nat.zero_le _⟩, rfl, ?_⟩
  intro stopped
  cases stopped

theorem stopped_run (stopped : s.monitor.shared.running_ = false)
    (ran : (pool.machine α).run s ls = some t) :
    t.monitor.shared.running_ = false ∧
      accepted t.monitor.history = accepted s.monitor.history := by
  let closed := fun (shared : Shared α) (history : History α) =>
    shared.running_ = false ∧ accepted history = accepted s.monitor.history
  refine run_monitor (fun m => closed m.shared m.history) ?_ ⟨stopped, rfl⟩ ran
  intro m l n before taken
  refine Monitor.history_step ?_ before taken
  rintro w shared shared' result signals history ⟨stopped, same⟩ done
  obtain ⟨after, nothing⟩ := stopped_kept history stopped done
  exact ⟨after, nothing.trans same⟩

/-- In every run of the pool, tasks leave the queue in the order in which they were
    accepted, each once; the queue keeps its bound and no assertion fails; and from the
    moment stop() has cleared running_ nothing is accepted and nobody waits. -/
theorem tasks_in_order_until_stop (pool : Pool) {ls : List (Label α)}
    (ran : (pool.machine α).run pool.start ls = some s) :
    handed s.monitor.history ++ s.monitor.shared.queue_ = accepted s.monitor.history ∧
      (0 < pool.maxQueueSize_ → s.monitor.shared.queue_.length ≤ pool.maxQueueSize_) ∧
      s.monitor.failure = none ∧
      (s.monitor.shared.running_ = false → ∀ ks t, (pool.machine α).run s ks = some t →
        accepted t.monitor.history = accepted s.monitor.history ∧ ∀ c, t.monitor.waiting c = []) := by
  have inv := orderly_run (orderly_start pool) ran
  refine ⟨inv.ordered.order, inv.ordered.bounded, inv.sane, ?_⟩
  intro stopped ks t later
  obtain ⟨still, same⟩ := stopped_run stopped later
  exact ⟨same, (orderly_run inv later).released still⟩

/-- One place, two workers and two producers. Worker 0 takes the first task and runs it
    while the second fills the queue and producer 8 waits; worker 1 has gone to wait
    before. stop() releases all of them: worker 1 takes the task that was left. -/
def stoppedRun : List (Label Nat) :=
  [.test 1, .monitor (.call ⟨.worker 1, .take⟩ []), .test 0,
    .monitor (.call ⟨.other 7, .run (some 10)⟩ [some (.worker 1)]),
    .monitor (.call ⟨.worker 0, .take⟩ [none]),
    .monitor (.resume .notEmpty_ (.worker 1) []),
    .monitor (.wake .notEmpty_ (.worker 1)),
    .monitor (.call ⟨.other 7, .run (some 11)⟩ [none]),
    .monitor (.call ⟨.other 8, .run (some 12)⟩ []),
    .monitor (.call ⟨.other 9, .stop⟩ []),
    .monitor (.resume .notFull_ (.other 8) []),
    .monitor (.recheck .notEmpty_ (.worker 1) [none]),
    .finish 1, .test 1, .finish 0, .test 0, .join]

theorem tasks_in_order_in_stoppedRun :
    ∃ s, ((⟨1, 2⟩ : Pool).machine Nat).run (Pool.start ⟨1, 2⟩) stoppedRun = some s ∧
      s.joined = true ∧ s.monitor.shared.running_ = false ∧
      handed s.monitor.history = [some 10, some 11] ∧
      handed s.monitor.history ++ s.monitor.shared.queue_ = accepted s.monitor.history ∧
      ∀ c, s.monitor.waiting c = [] := by
  have outcome : (((⟨1, 2⟩ : Pool).machine Nat).run (Pool.start ⟨1, 2⟩) stoppedRun).map (fun s =>
      (s.joined, s.monitor.shared.running_, handed s.monitor.history)) =
      some (true, false, [some 10, some 11]) := by decide +kernel
  obtain ⟨s, reached, facts⟩ := Option.map_eq_some_iff.mp outcome
  simp only [Prod.mk.injEq] at facts
  obtain ⟨joined, stopped, tasks⟩ := facts
  obtain ⟨order, -, -, after⟩ := tasks_in_order_until_stop ⟨1, 2⟩ reached
  exact ⟨s, reached, joined, stopped, tasks, order, (after stopped [] s rfl).2⟩

end Pool
end ThreadPool
end Muduo
