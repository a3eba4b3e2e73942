import Muduo.Net.EventLoop

/-!
What holds in every state of every interleaving of an EventLoop with its
callers: functors are conserved in push order, and the loop does not go to sleep
on queued work except in the one way stated below. Nothing is assumed about
fairness; these are statements about states, also in the middle of a batch.
-/
namespace Muduo
open Lib
namespace EventLoop
variable {F : Type} {s t : State F}

structure Ordered (s : State F) : Prop where
  conserved : s.ran.map Prod.fst ++ s.queue.waiting = s.pushed
  between : s.pc ≠ .runFunctors → s.queue.batch = []
  ranLater : ∀ r ∈ s.ran, r.1.swapsBefore < r.2
  batchLater : ∀ e ∈ s.queue.batch, e.swapsBefore < s.swaps
  pendingNow : ∀ e ∈ s.queue.pending, e.swapsBefore ≤ s.swaps

theorem ordered_init : Ordered (init : State F) where
  conserved := rfl
  between := fun _ => rfl
  ranLater := by intro r member; cases member
  batchLater := by intro e member; cases member
  pendingNow := by intro e member; cases member

theorem ordered_frame (ordered : Ordered s) (queue : t.queue = s.queue)
    (pushed : t.pushed = s.pushed) (ran : t.ran = s.ran) (swaps : t.swaps = s.swaps)
    (pc : t.pc ≠ .runFunctors → s.pc ≠ .runFunctors ∨ s.queue.batch = []) : Ordered t where
  conserved := by rw [queue, pushed, ran]; exact ordered.conserved
  between := by
    intro left
    rw [queue]
    rcases pc left with was | done
    · exact ordered.between was
    · exact done
  ranLater := by rw [ran]; exact ordered.ranLater
  batchLater := by rw [queue, swaps]; exact ordered.batchLater
  pendingNow := by rw [queue, swaps]; exact ordered.pendingNow

theorem ordered_pushFunctor (ordered : Ordered s) (byThread : Option Nat) (f : F) :
    Ordered (pushFunctor s byThread f) where
  conserved := by
    simp only [pushFunctor, Batch.waiting_push, ← ordered.conserved, List.append_assoc]
  between := ordered.between
  ranLater := ordered.ranLater
  batchLater := ordered.batchLater
  pendingNow := by
    intro e member
    simp only [pushFunctor, Batch.push, List.mem_append, List.mem_singleton] at member
    rcases member with old | new
    · exact ordered.pendingNow e old
    · subst new
      exact Nat.le_refl _

theorem ordered_swap (ordered : Ordered s) (pc : s.pc = .takeFunctors) :
    Ordered { s with pc := .runFunctors, queue := s.queue.swap, swaps := s.swaps + 1 } := by
  have idle : s.queue.batch = [] := ordered.between (by simp [pc])
  constructor
  · simp only [Batch.waiting_swap idle]
    exact ordered.conserved
  · intro left
    exact absurd rfl left
  · exact ordered.ranLater
  · intro e member
    exact Nat.lt_succ_of_le (ordered.pendingNow e member)
  · intro e member
    cases member

theorem ordered_start {e : Queued F} {q : Batch (Queued F)} (ordered : Ordered s)
    (pc : s.pc = .runFunctors) (next : s.queue.next = some (e, q)) :
    Ordered { s with queue := q, running := true, ran := s.ran ++ [(e, s.swaps)] } := by
  obtain ⟨batch, pending⟩ := Batch.next_eq_some.mp next
  constructor
  · simp only [List.map_append, List.map_cons, List.map_nil, List.append_assoc,
      List.singleton_append, ← Batch.waiting_next next]
    exact ordered.conserved
  · intro left
    exact absurd pc left
  · intro r member
    simp only [List.mem_append, List.mem_singleton] at member
    rcases member with old | new
    · exact ordered.ranLater r old
    · subst new
      exact ordered.batchLater e (by simp [batch])
  · intro d member
    exact ordered.batchLater d (by simp [batch, member])
  · intro d member
    rw [pending] at member
    exact ordered.pendingNow d member

theorem ordered_step (s : State F) (l : Label F) (t : State F) (ordered : Ordered s)
    (taken : step s l = some t) : Ordered t := by
  cases stepped taken with
  | @push i f =>
    exact ordered_frame (ordered_pushFunctor ordered (some i) f) rfl rfl rfl rfl Or.inl
  | @loopPush f =>
    exact ordered_frame (ordered_pushFunctor ordered none f) rfl rfl rfl rfl Or.inl
  | quit | wakeup | loopQuit | loopWakeup | handleRead | functorReturns =>
    exact ordered_frame ordered rfl rfl rfl rfl Or.inl
  | enterLoop pc | leaveLoop pc | goOn pc | pollReturns pc | endEvents pc =>
    exact ordered_frame ordered rfl rfl rfl rfl (by simp [pc])
  | swapFunctors pc => exact ordered_swap ordered pc
  | startFunctor pc _ next => exact ordered_start ordered pc next
  | endFunctors _ _ done => exact ordered_frame ordered rfl rfl rfl rfl (fun _ => Or.inr done)

/-- The functors that the calls of queueInLoop in a run push, each with the number of swaps
    that come before it, when n have come already. -/
def pushes (n : Nat) : List (Label F) → List (F × Nat)
  | [] => []
  | .push _ f :: ls | .loopPush f :: ls => (f, n) :: pushes n ls
  | .swapFunctors :: ls => pushes (n + 1) ls
  | _ :: ls => pushes n ls

def starts (n : Nat) : List (Label F) → List Nat
  | [] => []
  | .startFunctor :: ls => n :: starts n ls
  | .swapFunctors :: ls => starts (n + 1) ls
  | _ :: ls => starts n ls

def Queued.entry (e : Queued F) : F × Nat := (e.functor, e.swapsBefore)

theorem recorded_step {l : Label F} (taken : step s l = some t) (ls : List (Label F)) :
    s.pushed.map Queued.entry ++ pushes s.swaps (l :: ls) =
        t.pushed.map Queued.entry ++ pushes t.swaps ls ∧
      s.ran.map Prod.snd ++ starts s.swaps (l :: ls) =
        t.ran.map Prod.snd ++ starts t.swaps ls := by
  cases stepped taken with
  | push | loopPush => simp [pushes, starts, pushFunctor, Queued.entry]
  | startFunctor => simp [pushes, starts]
  | _ => exact ⟨rfl, rfl⟩

theorem recorded_run {ls : List (Label F)} (reached : (machine F).run s ls = some t) :
    t.pushed.map Queued.entry = s.pushed.map Queued.entry ++ pushes s.swaps ls ∧
      t.ran.map Prod.snd = s.ran.map Prod.snd ++ starts s.swaps ls := by
  induction ls generalizing s with
  | nil =>
    cases reached
    simp [pushes, starts]
  | cons l ls ih =>
    obtain ⟨u, taken, rest⟩ := (machine F).run_cons_eq_some.mp reached
    obtain ⟨pushed, ran⟩ := recorded_step taken ls
    rw [pushed, ran]
    exact ih rest

/-- At every moment of every interleaving, the functors started so far, then those
    of the batch that have not started, then pendingFunctors_, are exactly the
    functors in the order they were pushed. A functor pushed after the n-th swap,
    by a functor of batch n for instance, only ever runs in a later batch. -/
theorem functors_run_once_in_order (ls : List (Label F)) (s : State F)
    (reached : (machine F).run init ls = some s) :
    s.ran.map Prod.fst ++ s.queue.batch ++ s.queue.pending = s.pushed ∧
      s.pushed.map Queued.entry = pushes 0 ls ∧ s.ran.map Prod.snd = starts 0 ls ∧
      ∀ r ∈ s.ran, r.1.swapsBefore < r.2 := by
  have ordered := (machine F).run_invariant ordered_step ordered_init reached
  obtain ⟨pushed, ran⟩ := recorded_run reached
  refine ⟨?_, pushed, ran, ordered.ranLater⟩
  have conserved := ordered.conserved
  rwa [Batch.waiting, ← List.append_assoc] at conserved

def sampleRun : List (Label Nat) :=
  [.push 7 1, .wakeup 7, .enterLoop, .testQuit, .pollReturns true, .handleRead, .endEvents,
    .swapFunctors, .startFunctor, .loopPush 2, .loopWakeup, .functorReturns]

theorem functors_run_once_in_order_sample :
    ∃ s, (machine Nat).run init sampleRun = some s ∧
      s.ran.map (fun r => (r.1.entry, r.2)) = [((1, 0), 1)] ∧
      s.queue.pending.map Queued.entry = [(2, 1)] ∧
      s.ran.map Prod.fst ++ s.queue.batch ++ s.queue.pending = s.pushed ∧
      s.pushed.map Queued.entry = pushes 0 sampleRun ∧ s.ran.map Prod.snd = starts 0 sampleRun ∧
      ∀ r ∈ s.ran, r.1.swapsBefore < r.2 := by
  have outcome : ((machine Nat).run init sampleRun).map (fun s =>
      (s.ran.map (fun r => (r.1.entry, r.2)), s.queue.pending.map Queued.entry)) =
      some ([((1, 0), 1)], [(2, 1)]) := by decide +kernel
  obtain ⟨s, reached, seen⟩ := Option.map_eq_some_iff.mp outcome
  obtain ⟨ran, pending⟩ := Prod.mk.inj seen
  exact ⟨s, reached, ran, pending, functors_run_once_in_order sampleRun s reached⟩

def Queued.outsideLoop (e : Queued F) : Prop := e.byThread = none ∧ e.whileLooping = false

def Woken (s : State F) : Prop :=
  0 < s.wakeupCounter ∨ (∃ t, s.threads t = .pushed) ∨ s.loopWaking = true

def SleepAhead (pc : Pc) : Prop := pc ≠ .handleEvents ∧ pc ≠ .takeFunctors

structure Wakeful (s : State F) : Prop where
  looping : s.looping_ = true ↔ s.pc ≠ .outside
  calling : s.callingPendingFunctors_ = true ↔ s.pc = .takeFunctors ∨ s.pc = .runFunctors
  waking : s.loopWaking = true → s.pc = .runFunctors ∧ s.running = true
  woken : SleepAhead s.pc → (∀ e ∈ s.queue.pending, e.outsideLoop) ∨ Woken s
  first : s.polled = true → SleepAhead s.pc → s.pc ≠ .outside →
    ∀ e ∈ s.queue.pending, ¬e.outsideLoop

theorem wakeful_init : Wakeful (init : State F) where
  looping := by simp [init]
  calling := by simp [init]
  waking := by simp [init]
  woken := by
    intro _
    exact Or.inl (by intro e member; cases member)
  first := by simp [init]

theorem Wakeful.still (wakeful : Wakeful s) (elsewhere : s.pc ≠ .runFunctors) :
    s.loopWaking = false := by
  cases waking : s.loopWaking with
  | false => rfl
  | true => exact absurd (wakeful.waking waking).1 elsewhere

theorem wakeful_frame (wakeful : Wakeful s) (looping : t.looping_ = s.looping_)
    (calling : t.callingPendingFunctors_ = s.callingPendingFunctors_) (pc : t.pc = s.pc)
    (pending : t.queue.pending = s.queue.pending) (polled : t.polled = s.polled)
    (waking : t.loopWaking = true → t.pc = .runFunctors ∧ t.running = true)
    (woken : Woken s → Woken t) : Wakeful t where
  looping := by rw [looping, pc]; exact wakeful.looping
  calling := by rw [calling, pc]; exact wakeful.calling
  waking := waking
  woken := by
    intro ahead
    rw [pc] at ahead
    rw [pending]
    rcases wakeful.woken ahead with all | covered
    · exact Or.inl all
    · exact Or.inr (woken covered)
  first := by rw [polled, pc, pending]; exact wakeful.first

theorem woken_of_write {n : Nat} {threads : Nat → ThreadPc} {waking : Bool} :
    Woken { s with wakeupCounter := n + 1, threads := threads, loopWaking := waking } :=
  Or.inl (Nat.succ_pos n)

theorem woken_update {i : Nat} {p : ThreadPc} (idle : s.threads i = .idle) (q : Bool)
    (woken : Woken s) : Woken { s with quit_ := q, threads := Function.update s.threads i p } := by
  rcases woken with counter | ⟨u, pushed⟩ | waking
  · exact Or.inl counter
  · refine Or.inr (Or.inl ⟨u, ?_⟩)
    have other : u ≠ i := by
      intro same
      rw [same, idle] at pushed
      cases pushed
    simpa [Function.update_of_ne other] using pushed
  · exact Or.inr (Or.inr waking)

theorem wakeful_moves (wakeful : Wakeful s) (ahead : SleepAhead s.pc)
    (looping : t.looping_ = true ↔ t.pc ≠ .outside)
    (calling : t.callingPendingFunctors_ = true ↔ t.pc = .takeFunctors ∨ t.pc = .runFunctors)
    (still : t.loopWaking = false) (pending : t.queue.pending = s.queue.pending)
    (woken : Woken s → Woken t)
    (polled : t.polled = true → t.pc ≠ .outside → s.polled = true ∧ s.pc ≠ .outside) :
    Wakeful t where
  looping := looping
  calling := calling
  waking := by simp [still]
  woken := by
    intro _
    rw [pending]
    rcases wakeful.woken ahead with all | covered
    · exact Or.inl all
    · exact Or.inr (woken covered)
  first := by
    intro seen _ inside
    rw [pending]
    obtain ⟨before, within⟩ := polled seen inside
    exact wakeful.first before ahead within

theorem wakeful_awake (awake : ¬SleepAhead t.pc) (looping : t.looping_ = true ↔ t.pc ≠ .outside)
    (calling : t.callingPendingFunctors_ = true ↔ t.pc = .takeFunctors ∨ t.pc = .runFunctors)
    (waking : t.loopWaking = true → t.pc = .runFunctors ∧ t.running = true) : Wakeful t where
  looping := looping
  calling := calling
  waking := waking
  woken := by
    intro ahead
    exact absurd ahead awake
  first := by
    intro _ ahead
    exact absurd ahead awake

theorem wakeful_push (wakeful : Wakeful s) (i : Nat) (f : F) :
    Wakeful { pushFunctor s (some i) f with threads := Function.update s.threads i .pushed } := by
  constructor
  · exact wakeful.looping
  · exact wakeful.calling
  · exact wakeful.waking
  · intro _
    exact Or.inr (Or.inr (Or.inl ⟨i, Function.update_self _ _ _⟩))
  · intro polled ahead inside e member
    simp only [pushFunctor, Batch.push, List.mem_append, List.mem_singleton] at member
    rcases member with old | new
    · exact wakeful.first polled ahead inside e old
    · subst new
      simp [Queued.outsideLoop]

theorem wakeful_loopPush (wakeful : Wakeful s) (f : F) (user : inUserCode s = true) :
    Wakeful { pushFunctor s none f with loopWaking := s.callingPendingFunctors_ } := by
  have calling := wakeful.calling
  have looping := wakeful.looping
  constructor
  · exact looping
  · exact calling
  · intro waking
    rcases calling.mp waking with pc | pc
    · simp [inUserCode, pc] at user
    · have running : s.running = true := by simpa [inUserCode, pc] using user
      exact ⟨pc, running⟩
  · intro ahead
    by_cases outside : s.pc = .outside
    · rcases wakeful.woken ahead with all | covered
      · refine Or.inl ?_
        intro e member
        simp only [pushFunctor, Batch.push, List.mem_append, List.mem_singleton] at member
        rcases member with old | new
        · exact all e old
        · subst new
          exact ⟨rfl, by simpa [outside] using looping⟩
      · rcases covered with counter | pushed | waking
        · exact Or.inr (Or.inl counter)
        · exact Or.inr (Or.inr (Or.inl pushed))
        · have := (wakeful.waking waking).1
          simp [outside] at this
    · have running : s.pc = .runFunctors := by
        cases pc : s.pc with
        | outside => exact absurd pc outside
        | handleEvents => exact absurd pc ahead.1
        | runFunctors => rfl
        | whileTest => simp [inUserCode, pc] at user
        | poll => simp [inUserCode, pc] at user
        | takeFunctors => simp [inUserCode, pc] at user
      exact Or.inr (Or.inr (Or.inr (calling.mpr (Or.inr running))))
  · intro polled ahead inside e member
    simp only [pushFunctor, Batch.push, List.mem_append, List.mem_singleton] at member
    rcases member with old | new
    · exact wakeful.first polled ahead inside e old
    · subst new
      have on : s.looping_ = true := looping.mpr inside
      simp [Queued.outsideLoop, on]

theorem wakeful_swap (wakeful : Wakeful s) (pc : s.pc = .takeFunctors) :
    Wakeful { s with pc := .runFunctors, queue := s.queue.swap, swaps := s.swaps + 1 } := by
  have looping := wakeful.looping
  have calling := wakeful.calling
  constructor
  · simpa [pc] using looping
  · simpa [pc] using calling
  · simp [wakeful.still (by simp [pc])]
  · intro _
    exact Or.inl (by intro e member; cases member)
  · intro _ _ _ e member
    cases member

theorem wakeful_step (s : State F) (l : Label F) (t : State F) (wakeful : Wakeful s)
    (taken : step s l = some t) : Wakeful t := by
  have looping := wakeful.looping
  have calling := wakeful.calling
  cases stepped taken with
  | @push i f => exact wakeful_push wakeful i f
  | @loopPush f user => exact wakeful_loopPush wakeful f user
  | quit idle =>
    exact wakeful_frame wakeful rfl rfl rfl rfl rfl wakeful.waking (woken_update idle true)
  | wakeup =>
    exact wakeful_frame wakeful rfl rfl rfl rfl rfl wakeful.waking (fun _ => woken_of_write)
  | loopQuit => exact wakeful_frame wakeful rfl rfl rfl rfl rfl wakeful.waking id
  | loopWakeup =>
    exact wakeful_frame wakeful rfl rfl rfl rfl rfl (by simp) (fun _ => woken_of_write)
  | enterLoop pc _ still =>
    exact wakeful_moves wakeful (by simp [SleepAhead, pc]) (by simp) (by simpa [pc] using calling)
      still rfl id (by simp)
  | leaveLoop pc =>
    exact wakeful_moves wakeful (by simp [SleepAhead, pc]) (by simp) (by simpa [pc] using calling)
      (wakeful.still (by simp [pc])) rfl id (by simp)
  | goOn pc =>
    exact wakeful_moves wakeful (by simp [SleepAhead, pc]) (by simpa [pc] using looping)
      (by simpa [pc] using calling) (wakeful.still (by simp [pc])) rfl id (by simp [pc])
  | pollReturns pc =>
    exact wakeful_awake (by simp [SleepAhead]) (by simpa [pc] using looping)
      (by simpa [pc] using calling) (by simp [wakeful.still (by simp [pc])])
  | handleRead pc =>
    exact wakeful_awake (by simp [SleepAhead, pc]) looping calling wakeful.waking
  | endEvents pc _ still =>
    exact wakeful_awake (by simp [SleepAhead]) (by simpa [pc] using looping) (by simp)
      (by simp [still])
  | swapFunctors pc => exact wakeful_swap wakeful pc
  | startFunctor pc _ next =>
    exact wakeful_frame wakeful rfl rfl rfl (Batch.next_eq_some.mp next).2 rfl
      (fun _ => ⟨pc, rfl⟩) id
  | functorReturns _ _ still =>
    exact wakeful_frame wakeful rfl rfl rfl rfl rfl (by simp [still]) id
  | endFunctors pc idle =>
    have still : s.loopWaking = false := by
      cases waking : s.loopWaking with
      | false => rfl
      | true => exact absurd (wakeful.waking waking).2 (by simp [idle])
    exact wakeful_moves wakeful (by simp [SleepAhead, pc]) (by simpa [pc] using looping) (by simp)
      still rfl id (by simp [pc])

/-- Whenever the loop thread is in poller_->poll with work queued, the eventfd is
    readable, or some other thread has pushed and has its wakeup write ahead of
    it, or this is the first poll of the loop() call and the loop thread itself
    queued all of the work while not inside loop(). The last case does occur. -/
theorem poll_never_sleeps_on_work_except_first :
    (∀ (ls : List (Label F)) (s : State F), (machine F).run init ls = some s → s.pc = .poll →
      s.queue.pending ≠ [] →
        0 < s.wakeupCounter ∨ (∃ t, s.threads t = .pushed) ∨
          (s.polled = false ∧ ∀ e ∈ s.queue.pending, e.byThread = none ∧ e.whileLooping = false)) ∧
      ∀ f : F, ∃ ls s, (machine F).run init ls = some s ∧ s.pc = .poll ∧
        f ∈ s.queue.pending.map Queued.functor ∧ s.wakeupCounter = 0 ∧
          (∀ t, s.threads t = .idle) ∧
          s.polled = false ∧ ∀ e ∈ s.queue.pending, e.byThread = none ∧ e.whileLooping = false := by
  constructor
  · intro ls s reached pc work
    have wakeful := (machine F).run_invariant wakeful_step wakeful_init reached
    have ahead : SleepAhead s.pc := by simp [SleepAhead, pc]
    rcases wakeful.woken ahead with all | counter | pushed | waking
    · refine Or.inr (Or.inr ⟨?_, all⟩)
      obtain ⟨e, member⟩ := List.exists_mem_of_ne_nil _ work
      cases polled : s.polled with
      | false => rfl
      | true => exact absurd (all e member) (wakeful.first polled ahead (by simp [pc]) e member)
    · exact Or.inl counter
    · exact Or.inr (Or.inl pushed)
    · exact absurd (wakeful.waking waking).1 (by simp [pc])
  · intro f
    refine ⟨[.loopPush f, .enterLoop, .testQuit], _, rfl, rfl, ?_, rfl, fun _ => rfl, rfl, ?_⟩
    · simp [pushFunctor, Batch.push]
    · intro e member
      simp only [pushFunctor, Batch.push, init, Batch.empty, List.nil_append,
        List.mem_singleton] at member
      subst member
      exact ⟨rfl, rfl⟩

end EventLoop
end Muduo
