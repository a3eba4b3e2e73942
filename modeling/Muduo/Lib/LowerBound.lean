import Mathlib.Data.List.Basic

/-!
Binary search for the first place that a test turns down, as std::lower_bound
proceeds. The facts below need no order: the test holds right before the place that
is found and fails right at it.
-/
namespace Lib

/-- Fuel for as many rounds as there are elements is enough. -/
def lowerBoundFrom (below : Nat → Bool) : Nat → Nat → Nat → Nat
  | 0, first, _ => first
  | fuel + 1, first, len =>
    if len = 0 then first
    else
      let half := len / 2
      if below (first + half) then lowerBoundFrom below fuel (first + half + 1) (len - half - 1)
      else lowerBoundFrom below fuel first half

def lowerBound {α : Type} (below : α → Bool) (xs : List α) : Nat :=
  lowerBoundFrom (fun i => (xs[i]?).any below) xs.length 0 xs.length

def probesFrom : Nat → Nat → Nat → Nat → List Nat
  | 0, _, _, _ => []
  | fuel + 1, first, len, place =>
    if len = 0 then []
    else
      let half := len / 2
      (first + half) ::
        if first + half < place then probesFrom fuel (first + half + 1) (len - half - 1) place
        else probesFrom fuel first half place

def probes (n place : Nat) : List Nat := probesFrom n 0 n place

structure FoundBetween (below : Nat → Bool) (first len place : Nat) : Prop where
  ge : first ≤ place
  le : place ≤ first + len
  before : first < place → below (place - 1) = true
  here : place < first + len → below place = false

theorem lowerBoundFrom_spec (below : Nat → Bool) {fuel : Nat} (first len : Nat)
    (enough : len ≤ fuel) : FoundBetween below first len (lowerBoundFrom below fuel first len) := by
  induction fuel generalizing first len with
  | zero =>
    obtain rfl : len = 0 := by omega
    exact ⟨Nat.le_refl _, Nat.le_refl _, fun more => absurd more (Nat.lt_irrefl _),
      fun more => absurd more (Nat.lt_irrefl _)⟩
  | succ fuel ih =>
    unfold lowerBoundFrom
    split
    · subst len
      exact ⟨Nat.le_refl _, Nat.le_refl _, fun more => absurd more (Nat.lt_irrefl _),
        fun more => absurd more (Nat.lt_irrefl _)⟩
    · have smaller : len / 2 < len := by omega
      dsimp only
      split
      · rename_i low
        obtain ⟨ge, le, before, here⟩ := ih (first + len / 2 + 1) (len - len / 2 - 1) (by omega)
        refine ⟨by omega, by omega, ?_, ?_⟩
        · intro _
          rcases Nat.lt_or_ge (first + len / 2 + 1)
              (lowerBoundFrom below fuel (first + len / 2 + 1) (len - len / 2 - 1)) with past | same
          · exact before past
          · have there : lowerBoundFrom below fuel (first + len / 2 + 1) (len - len / 2 - 1) - 1 =
                first + len / 2 := by omega
            rw [there]
            exact low
        · intro inside
          exact here (by omega)
      · rename_i high
        obtain ⟨ge, le, before, here⟩ := ih first (len / 2) (by omega)
        refine ⟨ge, by omega, before, ?_⟩
        intro _
        rcases Nat.lt_or_ge (lowerBoundFrom below fuel first (len / 2)) (first + len / 2) with
          early | same
        · exact here early
        · have there : lowerBoundFrom below fuel first (len / 2) = first + len / 2 := by omega
          rw [there]
          simpa using high

/-- A place is found exactly when each comparison on the way to it points there. -/
theorem lowerBoundFrom_eq_iff (below : Nat → Bool) {fuel first len place : Nat}
    (enough : len ≤ fuel) (ge : first ≤ place) (le : place ≤ first + len) :
    lowerBoundFrom below fuel first len = place ↔
      ∀ m ∈ probesFrom fuel first len place, below m = true ↔ m < place := by
  induction fuel generalizing first len with
  | zero =>
    obtain rfl : place = first := by omega
    simp [lowerBoundFrom, probesFrom]
  | succ fuel ih =>
    unfold lowerBoundFrom probesFrom
    split
    · obtain rfl : place = first := by omega
      simp
    · have smaller : len / 2 < len := by omega
      dsimp only
      rw [List.forall_mem_cons]
      by_cases after : first + len / 2 < place
      · rw [if_pos after]
        split
        · rename_i low
          rw [ih (by omega) (by omega) (by omega)]
          simp [low, after]
        · rename_i high
          have found := lowerBoundFrom_spec below first (len / 2) (by omega : len / 2 ≤ fuel)
          have short := found.le
          simp only [high, after, iff_true, Bool.false_eq_true, false_and, iff_false]
          omega
      · rw [if_neg after]
        split
        · rename_i low
          have found := lowerBoundFrom_spec below (first + len / 2 + 1) (len - len / 2 - 1)
            (by omega : len - len / 2 - 1 ≤ fuel)
          have long := found.ge
          simp only [low, after, iff_false, not_true, false_and]
          omega
        · rename_i high
          rw [ih (by omega) (by omega) (by omega)]
          simp [high, after]

variable {α : Type} {below : α → Bool} {xs : List α}

theorem lowerBound_found (below : α → Bool) (xs : List α) :
    FoundBetween (fun i => (xs[i]?).any below) 0 xs.length (lowerBound below xs) :=
  lowerBoundFrom_spec _ 0 xs.length (Nat.le_refl _)

theorem lowerBound_le (below : α → Bool) (xs : List α) : lowerBound below xs ≤ xs.length := by
  simpa using (lowerBound_found below xs).le

theorem lowerBound_here {x : α} (there : xs[lowerBound below xs]? = some x) : below x = false := by
  have inside := (List.getElem?_eq_some_iff.mp there).1
  have refused := (lowerBound_found below xs).here (by simpa using inside)
  rw [there] at refused
  exact refused

theorem lowerBound_eq_iff {k : Nat} (inside : k ≤ xs.length) : lowerBound below xs = k ↔
    ∀ m ∈ probes xs.length k, (xs[m]?).any below = true ↔ m < k :=
  lowerBoundFrom_eq_iff _ (Nat.le_refl _) (Nat.zero_le _) (by omega)

theorem lowerBound_eq {k : Nat} (inside : k ≤ xs.length)
    (low : ∀ j, j < k → (xs[j]?).any below = true)
    (high : ∀ j, k ≤ j → (xs[j]?).any below = false) : lowerBound below xs = k := by
  rw [lowerBound_eq_iff inside]
  intro m _
  rcases Nat.lt_or_ge m k with early | late
  · simp [low m early, early]
  · simp [high m late, Nat.not_lt.mpr late]

theorem lowerBound_eq_of_sorted {before : α → α → Prop} (sorted : xs.Pairwise before)
    (down : ∀ {a b}, before a b → below b = true → below a = true) {k : Nat}
    (inside : k ≤ xs.length) (low : ∀ j x, j + 1 = k → xs[j]? = some x → below x = true)
    (high : ∀ x, xs[k]? = some x → below x = false) : lowerBound below xs = k := by
  have apart := List.pairwise_iff_getElem.mp sorted
  refine lowerBound_eq inside ?_ ?_
  · intro j lt
    obtain ⟨m, rfl⟩ : ∃ m, k = m + 1 := ⟨k - 1, by omega⟩
    have last := low m _ rfl (List.getElem?_eq_getElem (by omega))
    rw [List.getElem?_eq_getElem (by omega), Option.any_some]
    rcases Nat.eq_or_lt_of_le (Nat.le_of_lt_succ lt) with rfl | earlier
    · exact last
    · exact down (apart j m (by omega) (by omega) earlier) last
  · intro j le
    cases later : xs[j]? with
    | none => rfl
    | some x =>
      obtain ⟨bound, rfl⟩ := List.getElem?_eq_some_iff.mp later
      have first := high _ (List.getElem?_eq_getElem (by omega))
      rw [Option.any_some]
      rcases Nat.eq_or_lt_of_le le with rfl | after
      · exact first
      · apply eq_false_of_ne_true
        intro held
        rw [down (apart k j (by omega) bound after) held] at first
        cases first

end Lib
