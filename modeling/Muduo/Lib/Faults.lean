import Muduo.Lib.Checked
import Muduo.Lib.Machine

/-!
Steps that may fail an assertion. The state keeps the failure, and no step is enabled after it.
-/
namespace Lib

/-- A computation that has no result where it is not enabled. -/
def returned {α : Type} : Checked (Option α) → Option (Checked α)
  | .ok none => none
  | .ok (some a) => some (.ok a)
  | .error e => some (.error e)

theorem returned_eq_ok {α : Type} {c : Checked (Option α)} {a : α} :
    returned c = some (.ok a) ↔ c = .ok (some a) := by
  rcases c with e | ⟨_ | b⟩ <;> simp [returned]

theorem returned_eq_error {α : Type} {c : Checked (Option α)} {e : String} :
    returned c = some (.error e) ↔ c = .error e := by
  rcases c with e' | ⟨_ | b⟩ <;> simp [returned]

structure Faults (State : Type) where
  fault : State → Option String
  fail : State → String → State

namespace Faults
variable {State Label : Type} (f : Faults State)

def settle (s : State) : Checked State → State
  | .ok t => t
  | .error e => f.fail s e

/-- `perform` has a result where the label is enabled. -/
def step (perform : State → Label → Option (Checked State)) (s : State) (l : Label) :
    Option State :=
  if (f.fault s).isSome then none else (perform s l).map (f.settle s)

def machine (perform : State → Label → Option (Checked State)) : Machine State Label :=
  ⟨f.step perform⟩

variable {perform : State → Label → Option (Checked State)} {s t : State} {l : Label} {e : String}

theorem performed_of_step (taken : (f.machine perform).step s l = some t) :
    f.fault s = none ∧ ∃ result, perform s l = some result ∧ f.settle s result = t := by
  simp only [machine, step] at taken
  split at taken
  · cases taken
  · rename_i running
    exact ⟨by simpa using running, Option.map_eq_some_iff.mp taken⟩

theorem step_cases (taken : (f.machine perform).step s l = some t) :
    f.fault s = none ∧ (perform s l = some (.ok t) ∨
      ∃ e, perform s l = some (.error e) ∧ t = f.fail s e) := by
  obtain ⟨running, result, performed, rfl⟩ := f.performed_of_step taken
  refine ⟨running, ?_⟩
  cases result with
  | ok u => exact Or.inl performed
  | error e => exact Or.inr ⟨e, performed, rfl⟩

theorem step_running (running : f.fault s = none) :
    (f.machine perform).step s l = (perform s l).map (f.settle s) := by
  simp [machine, step, running]

theorem step_of_fault (failed : f.fault s ≠ none) : (f.machine perform).step s l = none := by
  simp [machine, step, Option.isSome_iff_ne_none.mpr failed]

theorem step_of_ok (running : f.fault s = none) (performed : perform s l = some (.ok t)) :
    (f.machine perform).step s l = some t := by
  rw [f.step_running running, performed]
  rfl

end Faults
end Lib
