import Mathlib.Data.List.Basic

/-!
The order of entries in a journal that only grows at its end.
-/
namespace Lib
variable {α : Type} {xs : List α} {effect : α} {cause : α → Prop}

theorem split_append {ys before after : List α} {x : α} (split : xs ++ ys = before ++ x :: after) :
    (∃ rest, xs = before ++ x :: rest) ∨ ∃ more, before = xs ++ more ∧ ys = more ++ x :: after := by
  rcases List.append_eq_append_iff.mp split with ⟨more, front, back⟩ | ⟨more, front, back⟩
  · exact Or.inr ⟨more, front, back⟩
  · cases more with
    | nil => exact Or.inr ⟨[], by rw [front]; simp, back.symm⟩
    | cons first rest =>
      obtain ⟨rfl, -⟩ := List.cons.inj back
      exact Or.inl ⟨rest, front⟩

theorem split_snoc {before after : List α} {x y : α} (split : xs ++ [y] = before ++ x :: after) :
    (∃ rest, xs = before ++ x :: rest) ∨ before = xs ∧ x = y := by
  rcases split_append split with old | ⟨more, front, back⟩
  · exact Or.inl old
  · right
    cases more with
    | nil => exact ⟨by rw [front, List.append_nil], (List.cons.inj back).1.symm⟩
    | cons first rest => simp at back

/-- Every occurrence of `effect` comes after an entry of which `cause` holds. -/
def Precedes (cause : α → Prop) (effect : α) (xs : List α) : Prop :=
  ∀ before after, xs = before ++ effect :: after → ∃ x ∈ before, cause x

theorem precedes_nil (cause : α → Prop) (effect : α) : Precedes cause effect [] := by
  intro before after split
  simp at split

theorem precedes_append {ys : List α} (order : Precedes cause effect xs)
    (new : effect ∈ ys → ∃ x ∈ xs, cause x) :
    Precedes cause effect (xs ++ ys) := by
  intro before after split
  rcases split_append split with ⟨rest, old⟩ | ⟨more, rfl, tail⟩
  · exact order before rest old
  · obtain ⟨x, member, holds⟩ := new (by rw [tail]; simp)
    exact ⟨x, List.mem_append_left _ member, holds⟩

theorem precedes_tail {first : α} (order : Precedes cause effect (first :: xs))
    (other : ¬cause first) :
    Precedes cause effect xs := by
  intro before after split
  obtain ⟨x, member, holds⟩ := order (first :: before) after (by rw [split, List.cons_append])
  rcases List.mem_cons.mp member with rfl | later
  · exact absurd holds other
  · exact ⟨x, later, holds⟩

theorem precedes_trans {middle : α} (first : Precedes cause middle xs)
    (second : Precedes (· = middle) effect xs) :
    Precedes cause effect xs := by
  intro before after split
  obtain ⟨x, member, rfl⟩ := second before after split
  obtain ⟨start, rest, shape⟩ := List.append_of_mem member
  obtain ⟨y, earlier, holds⟩ := first start (rest ++ effect :: after) (by rw [split, shape]; simp)
  exact ⟨y, by rw [shape]; exact List.mem_append_left _ earlier, holds⟩

end Lib
