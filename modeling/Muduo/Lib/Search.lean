import Mathlib.Data.List.Infix

/-!
The first place at which a pattern begins in a list, as std::search finds it.
-/
namespace Lib

theorem prefix_of_prefix_append {α : Type} {a : α} {xs ys zs : List α} (absent : a ∉ xs)
    (begins : xs <+: ys ++ a :: zs) : xs <+: ys := by
  by_cases short : xs.length ≤ ys.length
  · exact List.prefix_of_prefix_length_le begins (List.prefix_append ys _) short
  · have through : ys ++ [a] <+: ys ++ a :: zs := ⟨zs, by simp⟩
    have longer : (ys ++ [a]).length ≤ xs.length := by
      rw [List.length_append, List.length_singleton]
      omega
    have reaches := List.prefix_of_prefix_length_le through begins longer
    exact absurd (reaches.subset (List.mem_append_right ys (List.mem_singleton_self a))) absent

variable {α : Type} [DecidableEq α] {pattern xs : List α}

/-- The length of the list stands for not found. -/
def search (pattern : List α) : List α → Nat
  | [] => 0
  | x :: xs => if pattern <+: x :: xs then 0 else search pattern xs + 1

theorem search_le (pattern xs : List α) : search pattern xs ≤ xs.length := by
  induction xs with
  | nil => exact Nat.le_refl 0
  | cons x xs ih =>
    unfold search
    split
    · exact Nat.zero_le _
    · exact Nat.succ_le_succ ih

theorem search_found (found : search pattern xs < xs.length) :
    pattern <+: xs.drop (search pattern xs) := by
  induction xs with
  | nil => exact absurd found (Nat.not_lt_zero _)
  | cons x xs ih =>
    unfold search at found ⊢
    split
    · assumption
    · rename_i absent
      rw [if_neg absent, List.length_cons] at found
      exact ih (Nat.lt_of_succ_lt_succ found)

theorem search_fits (found : search pattern xs < xs.length) :
    search pattern xs + pattern.length ≤ xs.length := by
  have fits := (search_found found).length_le
  rw [List.length_drop] at fits
  omega

theorem search_append (found : search pattern xs < xs.length) (ys : List α) :
    search pattern (xs ++ ys) = search pattern xs := by
  induction xs with
  | nil => exact absurd found (Nat.not_lt_zero _)
  | cons x xs ih =>
    have fits := search_fits found
    by_cases here : pattern <+: x :: xs
    · have still : pattern <+: x :: (xs ++ ys) := here.trans (List.prefix_append (x :: xs) ys)
      simp only [List.cons_append, search, if_pos here, if_pos still]
    · -- The pattern is no longer than the list, so that it cannot reach into the rest.
      have absent : ¬pattern <+: x :: (xs ++ ys) := by
        intro there
        have short : pattern.length ≤ (x :: xs).length := by omega
        exact here (List.prefix_of_prefix_length_le there (List.prefix_append (x :: xs) ys) short)
      simp only [search, if_neg here, List.length_cons] at found
      simp only [List.cons_append, search, if_neg here, if_neg absent]
      rw [ih (by omega)]

theorem search_first (nonempty : pattern ≠ []) (xs : List α) :
    ¬pattern <:+: xs.take (search pattern xs) := by
  induction xs with
  | nil => simpa using nonempty
  | cons x xs ih =>
    unfold search
    split
    · simpa using nonempty
    · rename_i absent
      rw [List.take_succ_cons, List.infix_cons_iff]
      rintro (here | later)
      · exact absent (here.trans (List.take_prefix (search pattern xs + 1) (x :: xs)))
      · exact ih later

/-- A pattern that does not repeat its first element is found where it stands, unless the
    elements before it contain it. -/
theorem search_of_absent {a : α} {rest line : List α} (single : a ∉ rest)
    (absent : ¬a :: rest <:+: line) (behind : List α) :
    search (a :: rest) (line ++ a :: rest ++ behind) = line.length := by
  induction line with
  | nil => simp [search]
  | cons x line ih =>
    rw [List.infix_cons_iff, not_or] at absent
    have elsewhere : ¬a :: rest <+: x :: (line ++ a :: rest ++ behind) := by
      intro here
      obtain ⟨rfl, inner⟩ := List.cons_prefix_cons.mp here
      rw [List.append_assoc] at inner
      exact absent.1 (List.cons_prefix_cons.mpr ⟨rfl, prefix_of_prefix_append single inner⟩)
    simp only [List.cons_append, search, if_neg elsewhere, ih absent.2, List.length_cons]

end Lib
