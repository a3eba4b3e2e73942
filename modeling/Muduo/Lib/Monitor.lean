import Mathlib.Data.List.Perm.Basic
import Mathlib.Logic.Function.Basic
import Muduo.Lib.Checked
import Muduo.Lib.Machine

/-!
Monitors: data behind a mutex, and condition variables. An operation is a critical
section that looks at the data and then waits on a condition or completes, with
signals to waiting threads. A thread that was notified, or that woke up for no
reason, takes the mutex again at any later time and starts its section anew.
A label says which thread moves and whom its notifications reach.

The rules: what completed sections keep holds in every run; a condition that
stands for a stock of things to take loses no wake-up; a condition that is
broadcast when its wait ends for good holds no thread afterwards.
-/
namespace Lib
namespace Monitor

inductive Signal (Cond : Type) where
  | notify (c : Cond)
  | notifyAll (c : Cond)
  deriving DecidableEq, Repr

inductive Attempt (Shared Cond Result : Type) where
  | wait (c : Cond)
  | done (shared : Shared) (result : Result) (signals : List (Signal Cond))
  | failed (message : String)

def Attempt.ofChecked {Shared Cond Result : Type} :
    Checked (Shared × Result × List (Signal Cond)) → Attempt Shared Cond Result
  | .ok (shared, result, signals) => .done shared result signals
  | .error message => .failed message

structure Waiter (Thread Call : Type) where
  thread : Thread
  call : Call

/-- `notified` and `woken` are the threads that left a wait set and have yet to take the
    mutex; `history` lists the completed sections in their order. -/
structure State (Thread Shared Call Cond Result : Type) where
  shared : Shared
  waiting : Cond → List (Waiter Thread Call)
  notified : Cond → List (Waiter Thread Call)
  woken : Cond → List (Waiter Thread Call)
  inside : Thread → Bool
  history : List (Waiter Thread Call × Result)
  failure : Option String

/-- Each notification of a section has its entry in `chosen`: the thread it reaches, or
    none when no thread waits. -/
inductive Label (Thread Call Cond : Type) where
  | call (w : Waiter Thread Call) (chosen : List (Option Thread))
  | resume (c : Cond) (t : Thread) (chosen : List (Option Thread))
  | recheck (c : Cond) (t : Thread) (chosen : List (Option Thread))
  | wake (c : Cond) (t : Thread)

end Monitor

structure Monitor (Shared Call Cond Result : Type) where
  attempt : Call → Shared → Monitor.Attempt Shared Cond Result

namespace Monitor
variable {Thread Shared Call Cond Result : Type} [DecidableEq Thread] [DecidableEq Cond]

def takeOut (t : Thread) :
    List (Waiter Thread Call) → Option (Waiter Thread Call × List (Waiter Thread Call))
  | [] => none
  | w :: ws =>
    if w.thread = t then some (w, ws) else (takeOut t ws).map fun e => (e.1, w :: e.2)

def init (shared : Shared) : State Thread Shared Call Cond Result :=
  ⟨shared, fun _ => [], fun _ => [], fun _ => [], fun _ => false, [], none⟩

namespace State

def wait (s : State Thread Shared Call Cond Result) (c : Cond) (w : Waiter Thread Call) :
    State Thread Shared Call Cond Result :=
  { s with
    waiting := Function.update s.waiting c (s.waiting c ++ [w])
    inside := Function.update s.inside w.thread true }

def notify (s : State Thread Shared Call Cond Result) (c : Cond) :
    Option Thread → Option (State Thread Shared Call Cond Result)
  | none => if (s.waiting c).isEmpty then some s else none
  | some t => (takeOut t (s.waiting c)).map fun e =>
    { s with
      waiting := Function.update s.waiting c e.2
      notified := Function.update s.notified c (s.notified c ++ [e.1]) }

def notifyAll (s : State Thread Shared Call Cond Result) (c : Cond) :
    State Thread Shared Call Cond Result :=
  { s with
    waiting := Function.update s.waiting c []
    notified := Function.update s.notified c (s.notified c ++ s.waiting c) }

def signal : State Thread Shared Call Cond Result → List (Signal Cond) → List (Option Thread) →
    Option (State Thread Shared Call Cond Result)
  | s, [], [] => some s
  | s, .notifyAll c :: signals, chosen => (s.notifyAll c).signal signals chosen
  | s, .notify c :: signals, t :: chosen => (s.notify c t).bind fun u => u.signal signals chosen
  | _, _, _ => none

end State

variable (M : Monitor Shared Call Cond Result)

def critical (s : State Thread Shared Call Cond Result) (w : Waiter Thread Call)
    (chosen : List (Option Thread)) : Option (State Thread Shared Call Cond Result) :=
  match M.attempt w.call s.shared with
  | .wait c => some (s.wait c w)
  | .done shared result signals =>
    State.signal
      { s with
        shared := shared
        inside := Function.update s.inside w.thread false
        history := s.history ++ [(w, result)] }
      signals chosen
  | .failed message => some { s with failure := some message }

def step (s : State Thread Shared Call Cond Result) (l : Label Thread Call Cond) :
    Option (State Thread Shared Call Cond Result) :=
  if s.failure.isSome then none else
  match l with
  | .call w chosen => if s.inside w.thread then none else M.critical s w chosen
  | .resume c t chosen => (takeOut t (s.notified c)).bind fun e =>
    M.critical { s with notified := Function.update s.notified c e.2 } e.1 chosen
  | .recheck c t chosen => (takeOut t (s.woken c)).bind fun e =>
    M.critical { s with woken := Function.update s.woken c e.2 } e.1 chosen
  | .wake c t => (takeOut t (s.waiting c)).map fun e =>
    { s with
      waiting := Function.update s.waiting c e.2
      woken := Function.update s.woken c (s.woken c ++ [e.1]) }

def machine : Machine (State Thread Shared Call Cond Result) (Label Thread Call Cond) := ⟨M.step⟩

theorem takeOut_perm {t : Thread} {ws rest : List (Waiter Thread Call)} {w : Waiter Thread Call}
    (out : takeOut t ws = some (w, rest)) : ws.Perm (w :: rest) := by
  induction ws generalizing rest with
  | nil => cases out
  | cons first ws ih =>
    simp only [takeOut] at out
    split at out
    · cases out
      exact List.Perm.refl _
    · obtain ⟨⟨found, others⟩, inside, same⟩ := Option.map_eq_some_iff.mp out
      cases same
      exact ((ih inside).cons first).trans (List.Perm.swap found first others)

theorem takeOut_subset {t : Thread} {ws rest : List (Waiter Thread Call)} {w : Waiter Thread Call}
    (out : takeOut t ws = some (w, rest)) : rest ⊆ ws := by
  intro x member
  exact (takeOut_perm out).mem_iff.mpr (List.mem_cons_of_mem _ member)

section
variable {M} {s t u : State Thread Shared Call Cond Result} {l : Label Thread Call Cond}
  {P : Shared → List (Waiter Thread Call × Result) → Prop}

structure Signalled (s : State Thread Shared Call Cond Result) (signals : List (Signal Cond))
    (t : State Thread Shared Call Cond Result) : Prop where
  shared : t.shared = s.shared
  history : t.history = s.history
  failure : t.failure = s.failure
  waiting : ∀ c, t.waiting c ⊆ s.waiting c
  notified : ∀ c, ∀ w ∈ t.notified c, w ∈ s.notified c ∨ w ∈ s.waiting c
  counted : ∀ c, t.waiting c ≠ [] →
    (s.notified c).length + signals.count (.notify c) ≤ (t.notified c).length
  broadcast : ∀ c, .notifyAll c ∈ signals → t.waiting c = []

omit [DecidableEq Thread] in
theorem Signalled.trans {ks ls : List (Signal Cond)} (first : Signalled s ks t)
    (second : Signalled t ls u) : Signalled s (ks ++ ls) u := by
  refine ⟨second.shared.trans first.shared, second.history.trans first.history,
    second.failure.trans first.failure, ?_, ?_, ?_, ?_⟩
  · intro c w member
    exact first.waiting c (second.waiting c member)
  · intro c w member
    rcases second.notified c w member with told | still
    · exact first.notified c w told
    · exact Or.inr (first.waiting c still)
  · intro c nonempty
    have before : t.waiting c ≠ [] := by
      intro empty
      have none := second.waiting c
      rw [empty, List.subset_nil] at none
      exact nonempty none
    have early := first.counted c before
    have late := second.counted c nonempty
    rw [List.count_append]
    omega
  · intro c member
    rcases List.mem_append.mp member with early | late
    · have none := second.waiting c
      rwa [first.broadcast c early, List.subset_nil] at none
    · exact second.broadcast c late

omit [DecidableEq Thread] in
theorem notifyAll_signalled (s : State Thread Shared Call Cond Result) (c : Cond) :
    Signalled s [.notifyAll c] (s.notifyAll c) := by
  refine ⟨rfl, rfl, rfl, ?_, ?_, ?_, ?_⟩
  · intro d
    by_cases same : d = c
    · subst same
      simp [State.notifyAll]
    · simp [State.notifyAll, Function.update_of_ne same]
  · intro d w member
    by_cases same : d = c
    · subst same
      simpa [State.notifyAll] using member
    · simp only [State.notifyAll, Function.update_of_ne same] at member
      exact Or.inl member
  · intro d nonempty
    by_cases same : d = c
    · subst same
      simp [State.notifyAll] at nonempty
    · simp [State.notifyAll, Function.update_of_ne same]
  · intro d member
    obtain rfl : d = c := by simpa using member
    simp [State.notifyAll]

theorem notify_signalled {c : Cond} {chosen : Option Thread} (told : s.notify c chosen = some t) :
    Signalled s [.notify c] t := by
  cases chosen with
  | none =>
    simp only [State.notify] at told
    split at told
    · rename_i empty
      cases told
      refine ⟨rfl, rfl, rfl, fun _ => List.Subset.refl _, fun _ _ => Or.inl, ?_, by simp⟩
      intro d nonempty
      have other : c ≠ d := by
        rintro rfl
        exact nonempty (List.isEmpty_iff.mp empty)
      simp [other]
    · cases told
  | some thread =>
    obtain ⟨⟨w, rest⟩, out, rfl⟩ := Option.map_eq_some_iff.mp told
    refine ⟨rfl, rfl, rfl, ?_, ?_, ?_, by simp⟩
    · intro d
      by_cases same : d = c
      · subst same
        simpa using takeOut_subset out
      · simp [Function.update_of_ne same]
    · intro d x member
      by_cases same : d = c
      · subst same
        simp only [Function.update_self, List.mem_append, List.mem_singleton] at member
        rcases member with before | rfl
        · exact Or.inl before
        · exact Or.inr ((takeOut_perm out).mem_iff.mpr List.mem_cons_self)
      · simp only [Function.update_of_ne same] at member
        exact Or.inl member
    · intro d _
      by_cases same : d = c
      · subst same
        simp
      · simp [Function.update_of_ne same, Ne.symm same]

theorem signal_signalled {signals : List (Signal Cond)} {chosen : List (Option Thread)}
    (told : s.signal signals chosen = some t) : Signalled s signals t := by
  induction signals generalizing s chosen with
  | nil =>
    cases chosen with
    | nil =>
      cases told
      exact ⟨rfl, rfl, rfl, fun _ => List.Subset.refl _, fun _ _ => Or.inl, fun _ _ => by simp,
        fun _ => by simp⟩
    | cons => cases told
  | cons signal signals ih =>
    cases signal with
    | notifyAll c => exact (notifyAll_signalled s c).trans (ih told)
    | notify c =>
      cases chosen with
      | nil => cases told
      | cons thread chosen =>
        obtain ⟨u, first, rest⟩ := Option.bind_eq_some_iff.mp told
        exact (notify_signalled first).trans (ih rest)

variable (M) in
inductive Critical (s : State Thread Shared Call Cond Result) (w : Waiter Thread Call) :
    State Thread Shared Call Cond Result → Prop where
  | waits {c : Cond} (attempt : M.attempt w.call s.shared = .wait c) : Critical s w (s.wait c w)
  | completes {shared : Shared} {result : Result} {signals : List (Signal Cond)}
      {t : State Thread Shared Call Cond Result}
      (attempt : M.attempt w.call s.shared = .done shared result signals)
      (signalled : Signalled
        { s with
          shared := shared
          inside := Function.update s.inside w.thread false
          history := s.history ++ [(w, result)] }
        signals t) : Critical s w t
  | fails {message : String} (attempt : M.attempt w.call s.shared = .failed message) :
      Critical s w { s with failure := some message }

theorem critical_cases {w : Waiter Thread Call} {chosen : List (Option Thread)}
    (ran : M.critical s w chosen = some t) : Critical M s w t := by
  unfold critical at ran
  split at ran
  · cases ran
    exact Critical.waits ‹_›
  · exact Critical.completes ‹_› (signal_signalled ran)
  · cases ran
    exact Critical.fails ‹_›

variable (M) in
inductive Stepped (s : State Thread Shared Call Cond Result) :
    Label Thread Call Cond → State Thread Shared Call Cond Result → Prop where
  | call {w : Waiter Thread Call} {chosen : List (Option Thread)}
      {t : State Thread Shared Call Cond Result} (outside : s.inside w.thread = false)
      (ran : Critical M s w t) : Stepped s (.call w chosen) t
  | resume {c : Cond} {thread : Thread} {chosen : List (Option Thread)} {w : Waiter Thread Call}
      {rest : List (Waiter Thread Call)} {t : State Thread Shared Call Cond Result}
      (out : takeOut thread (s.notified c) = some (w, rest))
      (ran : Critical M { s with notified := Function.update s.notified c rest } w t) :
      Stepped s (.resume c thread chosen) t
  | recheck {c : Cond} {thread : Thread} {chosen : List (Option Thread)} {w : Waiter Thread Call}
      {rest : List (Waiter Thread Call)} {t : State Thread Shared Call Cond Result}
      (out : takeOut thread (s.woken c) = some (w, rest))
      (ran : Critical M { s with woken := Function.update s.woken c rest } w t) :
      Stepped s (.recheck c thread chosen) t
  | wake {c : Cond} {thread : Thread} {w : Waiter Thread Call} {rest : List (Waiter Thread Call)}
      (out : takeOut thread (s.waiting c) = some (w, rest)) :
      Stepped s (.wake c thread)
        { s with
          waiting := Function.update s.waiting c rest
          woken := Function.update s.woken c (s.woken c ++ [w]) }

theorem stepped (taken : M.step s l = some t) :
    s.failure = none ∧ Stepped M s l t := by
  have sane : s.failure = none := by
    cases failure : s.failure with
    | none => rfl
    | some message => simp [step, failure] at taken
  have unfailed : ¬s.failure.isSome = true := by simp [sane]
  refine ⟨sane, ?_⟩
  simp only [step, if_neg unfailed] at taken
  cases l with
  | call w chosen =>
    dsimp only at taken
    split at taken
    · cases taken
    · exact Stepped.call (by simpa using ‹¬s.inside w.thread = true›) (critical_cases taken)
  | resume c thread chosen =>
    obtain ⟨⟨w, rest⟩, out, ran⟩ := Option.bind_eq_some_iff.mp taken
    exact Stepped.resume out (critical_cases ran)
  | recheck c thread chosen =>
    obtain ⟨⟨w, rest⟩, out, ran⟩ := Option.bind_eq_some_iff.mp taken
    exact Stepped.recheck out (critical_cases ran)
  | wake c thread =>
    obtain ⟨⟨w, rest⟩, out, rfl⟩ := Option.map_eq_some_iff.mp taken
    exact Stepped.wake out

theorem history_step (kept : ∀ w shared shared' result signals history, P shared history →
      M.attempt w.call shared = .done shared' result signals → P shared' (history ++ [(w, result)]))
    (holds : P s.shared s.history) (taken : M.step s l = some t) :
    P t.shared t.history := by
  have through : ∀ {s t w}, P s.shared s.history → Critical M s w t → P t.shared t.history := by
    intro s t w holds ran
    cases ran with
    | waits | fails => exact holds
    | completes attempt signalled =>
      rw [signalled.shared, signalled.history]
      exact kept _ _ _ _ _ _ holds attempt
  obtain ⟨-, stepped⟩ := stepped taken
  cases stepped with
  | call _ ran | resume _ ran | recheck _ ran =>
    refine through ?_ ran
    exact holds
  | wake => exact holds

theorem failure_step (safe : ∀ call shared history message, P shared history →
      M.attempt call shared ≠ .failed message) (holds : P s.shared s.history)
    (taken : M.step s l = some t) :
    t.failure = none := by
  have through : ∀ {s t w}, P s.shared s.history → s.failure = none → Critical M s w t →
      t.failure = none := by
    intro s t w holds sane ran
    cases ran with
    | waits => exact sane
    | completes _ signalled => exact signalled.failure.trans sane
    | fails attempt => exact absurd attempt (safe _ _ _ _ holds)
  obtain ⟨sane, stepped⟩ := stepped taken
  cases stepped with
  | call _ ran | resume _ ran | recheck _ ran =>
    refine through ?_ ?_ ran
    · exact holds
    · exact sane
  | wake => exact sane

theorem history_run (kept : ∀ w shared shared' result signals history, P shared history →
      M.attempt w.call shared = .done shared' result signals → P shared' (history ++ [(w, result)]))
    (safe : ∀ call shared history message, P shared history →
      M.attempt call shared ≠ .failed message) {ls : List (Label Thread Call Cond)}
    (holds : P s.shared s.history) (sane : s.failure = none) (ran : M.machine.run s ls = some t) :
    P t.shared t.history ∧ t.failure = none := by
  let inv := fun s : State Thread Shared Call Cond Result =>
    P s.shared s.history ∧ s.failure = none
  have step : ∀ s l t, inv s → M.machine.step s l = some t → inv t := by
    rintro s l t ⟨holds, -⟩ taken
    exact ⟨history_step kept holds taken, failure_step safe holds taken⟩
  have start : inv s := ⟨holds, sane⟩
  exact M.machine.run_invariant step start ran

end

/-- A condition that stands for a stock of things: its threads wait for want of one and
    take one when they complete, and whoever adds to the stock notifies as often. All this
    as long as the data is sound, which the sections keep. -/
structure Guarded (M : Monitor Shared Call Cond Result) (c : Cond) where
  sound : Shared → Prop
  kept : ∀ {call shared shared' result signals}, sound shared →
    M.attempt call shared = .done shared' result signals → sound shared'
  stock : Shared → Nat
  uses : Call → Prop
  lacking : ∀ {call shared}, M.attempt call shared = .wait c → uses call ∧ stock shared = 0
  here : ∀ {call shared d}, M.attempt call shared = .wait d → uses call → d = c
  gives : ∀ {call shared shared' result signals},
    M.attempt call shared = .done shared' result signals →
      stock shared' ≤ stock shared + signals.count (.notify c)
  takes : ∀ {call shared shared' result signals}, uses call → sound shared →
    M.attempt call shared = .done shared' result signals →
      stock shared' + 1 ≤ stock shared + signals.count (.notify c)

namespace Guarded
variable {M} {c : Cond} {s t : State Thread Shared Call Cond Result}

structure Attended (g : Guarded M c) (s : State Thread Shared Call Cond Result) : Prop where
  sound : g.sound s.shared
  users : ∀ w, w ∈ s.waiting c ∨ w ∈ s.notified c → g.uses w.call
  covered : s.failure = none → s.waiting c ≠ [] → g.stock s.shared ≤ (s.notified c).length

/-- `owed` is one for a thread that was notified and now runs, of which the stock was
    counted so far. -/
theorem attended_critical (g : Guarded M c) {w : Waiter Thread Call} {owed : Nat}
    (sound : g.sound s.shared)
    (users : ∀ w, w ∈ s.waiting c ∨ w ∈ s.notified c → g.uses w.call)
    (covered : s.waiting c ≠ [] → g.stock s.shared ≤ (s.notified c).length + owed)
    (due : owed = 0 ∨ (owed = 1 ∧ g.uses w.call)) (ran : Critical M s w t) : g.Attended t := by
  cases ran with
  | @waits d attempt =>
    by_cases same : d = c
    · subst same
      obtain ⟨uses, none⟩ := g.lacking attempt
      refine ⟨sound, ?_, ?_⟩
      · intro x member
        simp only [State.wait, Function.update_self, List.mem_append, List.mem_singleton] at member
        rcases member with (old | rfl) | told
        · exact users x (Or.inl old)
        · exact uses
        · exact users x (Or.inr told)
      · intro _ _
        exact none ▸ Nat.zero_le _
    · have other : (s.wait d w).waiting c = s.waiting c := by
        simp [State.wait, Function.update_of_ne (Ne.symm same)]
      refine ⟨sound, ?_, ?_⟩
      · intro x member
        rw [other] at member
        exact users x member
      · intro _ nonempty
        rw [other] at nonempty
        have enough := covered nonempty
        rcases due with rfl | ⟨-, uses⟩
        · exact enough
        · exact absurd (g.here attempt uses) same
  | completes attempt signalled =>
    refine ⟨signalled.shared ▸ g.kept sound attempt, ?_, ?_⟩
    · intro x member
      rcases member with still | told
      · exact users x (Or.inl (signalled.waiting c still))
      · exact users x (signalled.notified c x told).symm
    · intro _ nonempty
      have before : s.waiting c ≠ [] := by
        intro empty
        have none := signalled.waiting c
        simp only [empty, List.subset_nil] at none
        exact nonempty none
      have enough := covered before
      have more := signalled.counted c nonempty
      have given := g.gives attempt
      rw [signalled.shared]
      dsimp only at more ⊢
      rcases due with rfl | ⟨rfl, uses⟩
      · omega
      · have taken := g.takes uses sound attempt
        omega
  | fails =>
    refine ⟨sound, users, ?_⟩
    intro impossible
    cases impossible

theorem attended_step (g : Guarded M c) {l : Label Thread Call Cond} (inv : g.Attended s)
    (taken : M.step s l = some t) : g.Attended t := by
  obtain ⟨sane, stepped⟩ := stepped taken
  have covered := inv.covered sane
  cases stepped with
  | call _ ran | recheck _ ran =>
    refine g.attended_critical ?_ ?_ ?_ (Or.inl rfl) ran
    · exact inv.sound
    · exact inv.users
    · exact covered
  | @resume d _ _ w rest t out ran =>
    by_cases same : d = c
    · subst same
      have members := fun x => (takeOut_perm out).mem_iff (a := x)
      have length := (takeOut_perm out).length_eq
      refine g.attended_critical ?_ ?_ ?_ (Or.inr ⟨rfl, ?_⟩) ran
      · exact inv.sound
      · intro x member
        rcases member with still | told
        · exact inv.users x (Or.inl still)
        · simp only [Function.update_self] at told
          exact inv.users x (Or.inr ((members x).mpr (List.mem_cons_of_mem _ told)))
      · intro nonempty
        have enough := covered nonempty
        simp only [Function.update_self]
        rw [List.length_cons] at length
        omega
      · exact inv.users w (Or.inr ((members w).mpr List.mem_cons_self))
    · refine g.attended_critical ?_ ?_ ?_ (Or.inl rfl) ran
      · exact inv.sound
      · simpa [Function.update_of_ne (Ne.symm same)] using inv.users
      · simpa [Function.update_of_ne (Ne.symm same)] using covered
  | @wake d _ w rest out =>
    by_cases same : d = c
    · subst same
      have subset := takeOut_subset out
      refine ⟨inv.sound, ?_, ?_⟩
      · intro x member
        simp only [Function.update_self] at member
        exact inv.users x (member.imp (fun still => subset still) id)
      · intro _ nonempty
        simp only [Function.update_self] at nonempty
        refine covered ?_
        intro empty
        rw [empty, List.subset_nil] at subset
        exact nonempty subset
    · refine ⟨inv.sound, ?_, ?_⟩
      · simpa [Function.update_of_ne (Ne.symm same)] using inv.users
      · simpa [Function.update_of_ne (Ne.symm same)] using inv.covered

theorem attended_run (g : Guarded M c) {shared : Shared} {ls : List (Label Thread Call Cond)}
    (sound : g.sound shared) (ran : M.machine.run (init shared) ls = some s) : g.Attended s := by
  have start : g.Attended (init shared : State Thread Shared Call Cond Result) := by
    refine ⟨sound, ?_, ?_⟩ <;> simp [init]
  have kept : ∀ (s : State Thread Shared Call Cond Result) l t, g.Attended s →
      M.machine.step s l = some t → g.Attended t := by
    intro s l t inv taken
    exact g.attended_step inv taken
  exact M.machine.run_invariant kept start ran

theorem no_lost_wakeup (g : Guarded M c) {shared : Shared} {ls : List (Label Thread Call Cond)}
    (sound : g.sound shared) (ran : M.machine.run (init shared) ls = some s) (sane : s.failure = none)
    (nonempty : s.waiting c ≠ []) : g.stock s.shared ≤ (s.notified c).length := by
  exact (g.attended_run sound ran).covered sane nonempty

end Guarded

section
variable {M} {c : Cond} {closed : Shared → Prop} {s t : State Thread Shared Call Cond Result}

theorem released_step (waits : ∀ call shared, M.attempt call shared = .wait c → ¬closed shared)
    (broadcast : ∀ call shared shared' result signals,
      M.attempt call shared = .done shared' result signals → closed shared' →
        closed shared ∨ .notifyAll c ∈ signals)
    {l : Label Thread Call Cond} (released : closed s.shared → s.waiting c = [])
    (taken : M.step s l = some t) : closed t.shared → t.waiting c = [] := by
  have through : ∀ {s t : State Thread Shared Call Cond Result} {w},
      (closed s.shared → s.waiting c = []) → Critical M s w t →
      closed t.shared → t.waiting c = [] := by
    intro s t w released ran ended
    cases ran with
    | @waits d attempt =>
      by_cases same : d = c
      · subst same
        exact absurd ended (waits _ _ attempt)
      · simp only [State.wait, Function.update_of_ne (Ne.symm same)]
        exact released ended
    | completes attempt signalled =>
      rw [signalled.shared] at ended
      rcases broadcast _ _ _ _ _ attempt ended with before | told
      · have none := signalled.waiting c
        simpa only [released before, List.subset_nil] using none
      · exact signalled.broadcast c told
    | fails => exact released ended
  obtain ⟨-, stepped⟩ := stepped taken
  cases stepped with
  | call _ ran | resume _ ran | recheck _ ran =>
    refine through ?_ ran
    exact released
  | @wake d _ w rest out =>
    intro ended
    have empty := released ended
    by_cases same : d = c
    · subst same
      rw [empty] at out
      cases out
    · simpa [Function.update_of_ne (Ne.symm same)] using empty

end
end Monitor
end Lib
