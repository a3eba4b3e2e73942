import Mathlib.Data.List.Nodup
import Mathlib.Logic.Function.Basic

/-!
A table of handles and the parties that hold them. A party that knows which handles it
holds can tell by its list alone that it releases each of them once and none of another's.
-/
namespace Lib
variable {Handle Owner : Type}

structure Owns (held : Handle → Option Owner) (me : Owner) (mine : List Handle) : Prop where
  distinct : mine.Nodup
  mem_iff : ∀ h, held h = some me ↔ h ∈ mine

namespace Owns
variable {held : Handle → Option Owner} {me : Owner} {mine : List Handle} {h : Handle}

theorem held_of_mem (owns : Owns held me mine) (listed : h ∈ mine) : held h = some me :=
  (owns.mem_iff h).mpr listed

theorem not_mem (owns : Owns held me mine) (strange : held h ≠ some me) : h ∉ mine :=
  fun listed => strange (owns.held_of_mem listed)

variable [DecidableEq Handle]

theorem acquire (owns : Owns held me mine) (strange : held h ≠ some me) :
    Owns (Function.update held h (some me)) me (h :: mine) where
  distinct := List.nodup_cons.mpr ⟨owns.not_mem strange, owns.distinct⟩
  mem_iff k := by
    by_cases same : k = h
    · simp [same]
    · rw [Function.update_of_ne same, owns.mem_iff, List.mem_cons, or_iff_right same]

theorem release (owns : Owns held me (h :: mine)) {next : Option Owner} (gone : next ≠ some me) :
    Owns (Function.update held h next) me mine where
  distinct := (List.nodup_cons.mp owns.distinct).2
  mem_iff k := by
    by_cases same : k = h
    · rw [same, Function.update_self]
      exact iff_of_false gone (List.nodup_cons.mp owns.distinct).1
    · rw [Function.update_of_ne same, owns.mem_iff, List.mem_cons, or_iff_right same]

theorem frame (owns : Owns held me mine) (strange : held h ≠ some me) {next : Option Owner}
    (gone : next ≠ some me) : Owns (Function.update held h next) me mine where
  distinct := owns.distinct
  mem_iff k := by
    by_cases same : k = h
    · rw [same, Function.update_self]
      exact iff_of_false gone (owns.not_mem strange)
    · rw [Function.update_of_ne same, owns.mem_iff]

end Owns
end Lib
