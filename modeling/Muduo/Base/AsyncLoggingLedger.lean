import Muduo.Base.AsyncLoggingBuffers

/-!
Where the lines are, when each is shorter than a buffer. Every line that was appended is in
one of the batches that the back end has taken, in buffers_ or in currentBuffer_, in the
order of append.
-/
namespace Muduo
open Lib
namespace AsyncLogging
variable {SIZE : Nat}

structure Sound (s : AsyncLogging SIZE) : Prop extends Supplied s where
  ledger : s.appended = held s

section
variable {s t : AsyncLogging SIZE} {l : Label}

theorem sound_start : Sound (start : AsyncLogging SIZE) := ⟨supplied_start, rfl⟩

def Label.Short (SIZE : Nat) : Label → Prop
  | .append logline => logline.length < SIZE
  | _ => True

theorem step_spec (sound : Sound s) (short : l.Short SIZE) (stepped : machine.step s l = some t) :
    Sound t ∧ Flowed s l t := by
  have ledger := sound.ledger
  obtain ⟨supplied, flowed⟩ := step_flows sound.toSupplied stepped
  refine ⟨⟨supplied, ?_⟩, flowed⟩
  cases flowed with
  | append frame backEnd kept => rw [frame.appended, kept short, ledger]
  | stop | join => exact ledger
  | takes frame from_ to_ all same => rw [frame.appended, same, ledger]
  | follows frame batches_ same => rw [frame.appended, same, ledger]

end

end AsyncLogging
end Muduo
