import Mathlib.Data.List.Basic

/-!
A queue that its consumer empties in batches: producers append to `pending`, the
consumer takes the whole of it at once and then works through the batch one item
at a time. `waiting` is the order in which items will be started.
-/
namespace Lib

structure Batch (α : Type) where
  pending : List α
  batch : List α
  deriving DecidableEq, Repr

namespace Batch
variable {α : Type}

def empty : Batch α := ⟨[], []⟩

def push (q : Batch α) (x : α) : Batch α := { q with pending := q.pending ++ [x] }

def swap (q : Batch α) : Batch α := ⟨[], q.pending⟩

def next (q : Batch α) : Option (α × Batch α) :=
  match q.batch with
  | [] => none
  | x :: rest => some (x, { q with batch := rest })

def waiting (q : Batch α) : List α := q.batch ++ q.pending

@[simp] theorem waiting_empty : (empty : Batch α).waiting = [] := rfl

@[simp] theorem waiting_push (q : Batch α) (x : α) : (q.push x).waiting = q.waiting ++ [x] := by
  simp [waiting, push]

@[simp] theorem batch_push (q : Batch α) (x : α) : (q.push x).batch = q.batch := rfl

theorem waiting_foldl_push (xs : List α) (q : Batch α) :
    (xs.foldl push q).waiting = q.waiting ++ xs := by
  induction xs generalizing q with
  | nil => simp
  | cons x xs ih => simp [ih]

theorem batch_foldl_push (xs : List α) (q : Batch α) : (xs.foldl push q).batch = q.batch := by
  induction xs generalizing q with
  | nil => rfl
  | cons x xs ih =>
    rw [List.foldl_cons, ih]
    rfl

theorem waiting_swap {q : Batch α} (idle : q.batch = []) : q.swap.waiting = q.waiting := by
  simp [waiting, swap, idle]

theorem next_eq_some {q q' : Batch α} {x : α} :
    q.next = some (x, q') ↔ q.batch = x :: q'.batch ∧ q'.pending = q.pending := by
  obtain ⟨pending, batch⟩ := q
  obtain ⟨pending', batch'⟩ := q'
  cases batch with
  | nil => simp [next]
  | cons y rest =>
    simp only [next, Option.some.injEq, Prod.mk.injEq, mk.injEq, List.cons.injEq]
    constructor
    · rintro ⟨rfl, rfl, rfl⟩
      exact ⟨⟨rfl, rfl⟩, rfl⟩
    · rintro ⟨⟨rfl, rfl⟩, rfl⟩
      exact ⟨rfl, rfl, rfl⟩

theorem waiting_next {q q' : Batch α} {x : α} (h : q.next = some (x, q')) :
    q.waiting = x :: q'.waiting := by
  obtain ⟨batch, pending⟩ := next_eq_some.mp h
  simp [waiting, batch, pending]

end Batch
end Lib
