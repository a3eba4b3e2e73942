import Muduo.Lib.Monitor

/-!
BoundedBlockingQueue as a monitor. put() waits for a free place and take() for an
element; each of them notifies one thread of the other kind. A notified thread may
find that another one was faster and go back to waiting. Still no element and no
free place is left without a wake-up under way.

boost::circular_buffer is a parameter. Of push_back on a full ring and of front and
pop_front on an empty one nothing is assumed.
-/
namespace Muduo
open Lib

/-- The members of boost::circular_buffer that the queue calls. -/
structure CircularBuffer (Ring α : Type) where
  new : Nat → Ring
  capacity : Ring → Nat
  size : Ring → Nat
  empty : Ring → Bool
  full : Ring → Bool
  push_back : Ring → α → Ring
  front : Ring → Checked α
  pop_front : Ring → Ring

structure CircularBuffer.Lawful {Ring α : Type} (B : CircularBuffer Ring α)
    (contents : Ring → List α) : Prop where
  contents_new : ∀ n, contents (B.new n) = []
  capacity_new : ∀ n, B.capacity (B.new n) = n
  size_eq : ∀ q, B.size q = (contents q).length
  empty_iff : ∀ q, B.empty q = true ↔ contents q = []
  full_iff : ∀ q, B.full q = true ↔ (contents q).length = B.capacity q
  contents_push_back : ∀ q x, B.full q = false → contents (B.push_back q x) = contents q ++ [x]
  capacity_push_back : ∀ q x, B.full q = false → B.capacity (B.push_back q x) = B.capacity q
  front_eq : ∀ q x rest, contents q = x :: rest → B.front q = .ok x
  contents_pop_front : ∀ q x rest, contents q = x :: rest → contents (B.pop_front q) = rest
  capacity_pop_front : ∀ q, contents q ≠ [] → B.capacity (B.pop_front q) = B.capacity q

namespace BoundedBlockingQueue
open Monitor (Attempt Guarded Waiter)

inductive Cond where
  | notEmpty_
  | notFull_
  deriving DecidableEq, Repr

inductive Call (α : Type) where
  | put (x : α)
  | take
  | empty
  | full
  | size
  | capacity

inductive Returned (α : Type) where
  | nothing
  | element (x : α)
  | flag (b : Bool)
  | number (n : Nat)

variable {Ring α : Type} (B : CircularBuffer Ring α)

def put (x : α) (queue_ : Ring) : Attempt Ring Cond (Returned α) :=
  if B.full queue_ then .wait .notFull_
  else .ofChecked do
    assertThat (B.full queue_ = false) "!queue_.full()"
    pure (B.push_back queue_ x, .nothing, [.notify .notEmpty_])

def take (queue_ : Ring) : Attempt Ring Cond (Returned α) :=
  if B.empty queue_ then .wait .notEmpty_
  else .ofChecked do
    assertThat (B.empty queue_ = false) "!queue_.empty()"
    let front ← B.front queue_
    pure (B.pop_front queue_, .element front, [.notify .notFull_])

def monitor : Monitor Ring (Call α) Cond (Returned α) where
  attempt call queue_ :=
    match call with
    | .put x => put B x queue_
    | .take => take B queue_
    | .empty => .done queue_ (.flag (B.empty queue_)) []
    | .full => .done queue_ (.flag (B.full queue_)) []
    | .size => .done queue_ (.number (B.size queue_)) []
    | .capacity => .done queue_ (.number (B.capacity queue_)) []

def Call.added : Call α → Option α
  | .put x => some x
  | _ => none

def Returned.taken : Returned α → Option α
  | .element x => some x
  | _ => none

def Call.observes : Call α → Bool
  | .put _ | .take => false
  | _ => true

inductive Attempted (contents : Ring → List α) (q : Ring) :
    Call α → Attempt Ring Cond (Returned α) → Prop where
  | putWaits {x : α} (whole : (contents q).length = B.capacity q) :
      Attempted contents q (.put x) (.wait .notFull_)
  | put {x : α} {r : Ring} (room : (contents q).length ≠ B.capacity q)
      (added : contents r = contents q ++ [x]) (same : B.capacity r = B.capacity q) :
      Attempted contents q (.put x) (.done r .nothing [.notify .notEmpty_])
  | takeWaits (none : contents q = []) : Attempted contents q .take (.wait .notEmpty_)
  | take {x : α} {r : Ring} (front : contents q = x :: contents r)
      (same : B.capacity r = B.capacity q) :
      Attempted contents q .take (.done r (.element x) [.notify .notFull_])
  | looks {call : Call α} {result : Returned α} (observer : call.observes = true)
      (untaken : result.taken = none) : Attempted contents q call (.done q result [])

section
variable {B} {contents : Ring → List α} (lawful : B.Lawful contents)
include lawful

theorem put_attempted (x : α) (q : Ring) : Attempted B contents q (.put x) (put B x q) := by
  cases full : B.full q with
  | true =>
    have waits : put B x q = .wait .notFull_ := by simp [put, full]
    rw [waits]
    exact Attempted.putWaits ((lawful.full_iff q).mp full)
  | false =>
    have done : put B x q = .done (B.push_back q x) .nothing [.notify .notEmpty_] := by
      simp [put, full, Attempt.ofChecked]
    rw [done]
    refine Attempted.put ?_ (lawful.contents_push_back q x full) (lawful.capacity_push_back q x full)
    intro whole
    rw [(lawful.full_iff q).mpr whole] at full
    cases full

theorem take_attempted (q : Ring) : Attempted B contents q .take (take B q) := by
  cases elems : contents q with
  | nil =>
    have empty : B.empty q = true := (lawful.empty_iff q).mpr elems
    have waits : take B q = .wait .notEmpty_ := by simp [take, empty]
    rw [waits]
    exact Attempted.takeWaits elems
  | cons x rest =>
    have some_ : contents q ≠ [] := by simp [elems]
    have empty : B.empty q = false := by
      rw [← Bool.not_eq_true, lawful.empty_iff]
      exact some_
    have done : take B q = .done (B.pop_front q) (.element x) [.notify .notFull_] := by
      simp [take, empty, lawful.front_eq q x rest elems, Attempt.ofChecked]
    rw [done]
    refine Attempted.take ?_ (lawful.capacity_pop_front q some_)
    rw [elems, lawful.contents_pop_front q x rest elems]

theorem attempted (call : Call α) (q : Ring) :
    Attempted B contents q call ((monitor B).attempt call q) := by
  cases call with
  | put x => exact put_attempted lawful x q
  | take => exact take_attempted lawful q
  | empty | full | size | capacity => exact Attempted.looks rfl rfl

/-- notEmpty_ stands for the elements of the queue. -/
def elementsGuarded : Guarded (monitor B) .notEmpty_ where
  sound _ := True
  kept _ _ := trivial
  stock q := (contents q).length
  uses call := call = .take
  lacking := by
    intro call q waits
    have outcome := attempted lawful call q
    rw [waits] at outcome
    cases outcome with
    | takeWaits none => exact ⟨rfl, by rw [none]; rfl⟩
  here := by
    intro call q d waits uses
    have outcome := attempted lawful call q
    rw [waits, uses] at outcome
    cases outcome
    rfl
  gives := by
    intro call q r result signals done
    have outcome := attempted lawful call q
    rw [done] at outcome
    cases outcome with
    | put _ added => simp [added]
    | take front => simp [front]
    | looks => simp
  takes := by
    intro call q r result signals uses _ done
    have outcome := attempted lawful call q
    rw [done, uses] at outcome
    cases outcome with
    | take front => simp [front]
    | looks observer => cases observer

/-- notFull_ stands for its free places, as long as there are no more elements than places. -/
def placesGuarded (n : Nat) : Guarded (monitor B) .notFull_ where
  sound q := B.capacity q = n ∧ (contents q).length ≤ n
  kept := by
    rintro call q r result signals ⟨rfl, bounded⟩ done
    have outcome := attempted lawful call q
    rw [done] at outcome
    cases outcome with
    | put room added same =>
      refine ⟨same, ?_⟩
      simp only [added, List.length_append, List.length_singleton]
      omega
    | take front same =>
      rw [front, List.length_cons] at bounded
      exact ⟨same, by omega⟩
    | looks => exact ⟨rfl, bounded⟩
  stock q := B.capacity q - (contents q).length
  uses call := ∃ x, call = .put x
  lacking := by
    intro call q waits
    have outcome := attempted lawful call q
    rw [waits] at outcome
    cases outcome with
    | @putWaits x whole => exact ⟨⟨x, rfl⟩, by omega⟩
  here := by
    rintro call q d waits ⟨x, rfl⟩
    have outcome := attempted lawful (.put x) q
    rw [waits] at outcome
    cases outcome
    rfl
  gives := by
    intro call q r result signals done
    have outcome := attempted lawful call q
    rw [done] at outcome
    cases outcome with
    | put _ added same =>
      simp only [added, same, List.length_append, List.length_singleton]
      omega
    | take front same =>
      simp only [front, same, List.length_cons, List.count_singleton_self]
      omega
    | looks => simp
  takes := by
    rintro call q r result signals ⟨x, rfl⟩ ⟨rfl, bounded⟩ done
    have outcome := attempted lawful (.put x) q
    rw [done] at outcome
    cases outcome with
    | put room added same =>
      simp only [added, same, List.length_append, List.length_singleton]
      omega
    | looks observer => cases observer

end

section
variable {B} {contents : Ring → List α} {Thread : Type}

/-- The elements of the completed put() calls, in the order of their critical sections. -/
def elementsPut (history : List (Waiter Thread (Call α) × Returned α)) : List α :=
  history.filterMap fun e => e.1.call.added

def elementsTaken (history : List (Waiter Thread (Call α) × Returned α)) : List α :=
  history.filterMap fun e => e.2.taken

def Fifo (contents : Ring → List α) (q : Ring)
    (history : List (Waiter Thread (Call α) × Returned α)) : Prop :=
  elementsTaken history ++ contents q = elementsPut history

theorem fifo_kept (lawful : B.Lawful contents) {w : Waiter Thread (Call α)} {q r : Ring}
    {result : Returned α} {signals : List (Monitor.Signal Cond)}
    {history : List (Waiter Thread (Call α) × Returned α)} (fifo : Fifo contents q history)
    (done : (monitor B).attempt w.call q = .done r result signals) :
    Fifo contents r (history ++ [(w, result)]) := by
  have outcome := attempted lawful w.call q
  rw [done] at outcome
  unfold Fifo elementsTaken elementsPut at *
  rw [List.filterMap_append, List.filterMap_append, ← fifo]
  generalize call : w.call = c at outcome
  cases outcome with
  | put _ added => simp [call, added, Call.added, Returned.taken]
  | take front => simp [call, front, Call.added, Returned.taken]
  | looks observer untaken =>
    have unput : c.added = none := by
      cases c with
      | put | take => cases observer
      | _ => rfl
    simp [call, unput, untaken]

theorem attempt_safe (lawful : B.Lawful contents) (call : Call α) (q : Ring) (message : String) :
    (monitor B).attempt call q ≠ .failed message := by
  intro failed
  have outcome := attempted lawful call q
  rw [failed] at outcome
  cases outcome

/-- In every interleaving of any calls by any threads the queue is first in first out,
    never over its capacity, fails no assertion and loses no wake-up. -/
theorem queue_loses_nothing [DecidableEq Thread] (lawful : B.Lawful contents) {n : Nat}
    {ls : List (Monitor.Label Thread (Call α) Cond)}
    {s : Monitor.State Thread Ring (Call α) Cond (Returned α)}
    (ran : (monitor B).machine.run (Monitor.init (B.new n)) ls = some s) :
    elementsTaken s.history ++ contents s.shared = elementsPut s.history ∧
      B.size s.shared ≤ n ∧ s.failure = none ∧
      ¬(s.waiting .notEmpty_ ≠ [] ∧ (s.notified .notEmpty_).length < B.size s.shared) ∧
      ¬(s.waiting .notFull_ ≠ [] ∧ (s.notified .notFull_).length < n - B.size s.shared) := by
  have start : Fifo contents (B.new n) ([] : List (Waiter Thread (Call α) × Returned α)) :=
    lawful.contents_new n
  obtain ⟨fifo, sane⟩ := Monitor.history_run
    (fun _ _ _ _ _ _ fifo done => fifo_kept lawful fifo done)
    (fun call q _ message _ => attempt_safe lawful call q message) start rfl ran
  have fresh : (placesGuarded lawful n).sound (B.new n) :=
    ⟨lawful.capacity_new n, by rw [lawful.contents_new]; exact Nat.zero_le n⟩
  obtain ⟨capacity, bounded⟩ := ((placesGuarded lawful n).attended_run fresh ran).sound
  rw [lawful.size_eq]
  refine ⟨fifo, bounded, sane, ?_, ?_⟩
  · rintro ⟨waiting, more⟩
    have enough := (elementsGuarded lawful).no_lost_wakeup trivial ran sane waiting
    exact absurd more (Nat.not_lt.mpr enough)
  · rintro ⟨waiting, more⟩
    have enough := (placesGuarded lawful n).no_lost_wakeup fresh ran sane waiting
    rw [← capacity] at more
    exact absurd more (Nat.not_lt.mpr enough)

end

/-- A ring as a list with its capacity; a full one overwrites its front. -/
def listRing : CircularBuffer (Nat × List Nat) Nat where
  new n := (n, [])
  capacity q := q.1
  size q := q.2.length
  empty q := q.2.isEmpty
  full q := q.2.length == q.1
  push_back q x := (q.1, if q.2.length = q.1 then (q.2 ++ [x]).tail else q.2 ++ [x])
  front q := match q.2 with
    | [] => .error "!empty()"
    | x :: _ => .ok x
  pop_front q := (q.1, q.2.tail)

theorem listRing_lawful : listRing.Lawful Prod.snd where
  contents_new _ := rfl
  capacity_new _ := rfl
  size_eq _ := rfl
  empty_iff _ := List.isEmpty_iff
  full_iff _ := beq_iff_eq
  contents_push_back q x room := if_neg (by simpa [listRing] using room)
  capacity_push_back _ _ _ := rfl
  front_eq q x rest held := by simp [listRing, held]
  contents_pop_front q x rest held := by simp [listRing, held]
  capacity_pop_front _ _ := rfl

/-- Consumers 1 and 2 wait on a queue of one place; 2 wakes up for no reason and waits
    again. The first element, for which 1 was notified, goes to consumer 3, so 1 waits
    again as well; the second one notifies 2, and producer 4 waits for the place. -/
def overtakenRun : List (Monitor.Label Nat (Call Nat) Cond) :=
  [.call ⟨1, .take⟩ [], .call ⟨2, .take⟩ [], .wake .notEmpty_ 2, .call ⟨4, .put 10⟩ [some 1],
    .call ⟨3, .take⟩ [none], .recheck .notEmpty_ 2 [], .resume .notEmpty_ 1 [],
    .call ⟨4, .put 11⟩ [some 2], .call ⟨4, .put 12⟩ []]

theorem queue_loses_nothing_in_overtakenRun :
    ∃ s, (monitor listRing).machine.run (Monitor.init (listRing.new 1)) overtakenRun = some s ∧
      (s.waiting .notEmpty_).length = 1 ∧ (s.waiting .notFull_).length = 1 ∧
      s.shared.2 = [11] ∧ elementsTaken s.history = [10] ∧
      elementsTaken s.history ++ s.shared.2 = elementsPut s.history ∧
      ¬(s.waiting .notEmpty_ ≠ [] ∧ (s.notified .notEmpty_).length < listRing.size s.shared) := by
  have outcome : ((monitor listRing).machine.run (Monitor.init (listRing.new 1))
      overtakenRun).map (fun s => ((s.waiting .notEmpty_).length, (s.waiting .notFull_).length,
        s.shared.2, elementsTaken s.history)) = some (1, 1, [11], [10]) := by decide +kernel
  obtain ⟨s, reached, facts⟩ := Option.map_eq_some_iff.mp outcome
  simp only [Prod.mk.injEq] at facts
  obtain ⟨consumers, producers, elems, taken⟩ := facts
  obtain ⟨fifo, -, -, attended, -⟩ := queue_loses_nothing listRing_lawful reached
  exact ⟨s, reached, consumers, producers, elems, taken, fifo, attended⟩

end BoundedBlockingQueue
end Muduo
