import Mathlib.Data.List.Sort

/-!
A finite set kept as a strictly increasing list, with the operations of an ordered
container: insertion and erasure that report what they did, the first element, and
the cut at a lower bound.
-/
namespace Lib

structure OrderedSet (α : Type) [LinearOrder α] where
  elems : List α
  increasing : elems.Pairwise (· < ·)

namespace OrderedSet
variable {α : Type} [LinearOrder α]

def empty : OrderedSet α := ⟨[], .nil⟩

instance : Membership α (OrderedSet α) := ⟨fun s x => x ∈ s.elems⟩

instance (x : α) (s : OrderedSet α) : Decidable (x ∈ s) := inferInstanceAs (Decidable (x ∈ s.elems))

def size (s : OrderedSet α) : Nat := s.elems.length

def first (s : OrderedSet α) : Option α := s.elems.head?

theorem increasing_orderedInsert {xs : List α} {x : α} (increasing : xs.Pairwise (· < ·))
    (new : x ∉ xs) : (xs.orderedInsert (· ≤ ·) x).Pairwise (· < ·) := by
  induction xs with
  | nil => simp
  | cons y ys ih =>
    simp only [List.mem_cons, not_or] at new
    obtain ⟨above, rest⟩ := List.pairwise_cons.mp increasing
    by_cases before : x ≤ y
    · rw [List.orderedInsert_cons_of_le _ _ before]
      have less : x < y := lt_of_le_of_ne before new.1
      refine List.pairwise_cons.mpr ⟨?_, increasing⟩
      intro z member
      rcases List.mem_cons.mp member with rfl | later
      · exact less
      · exact less.trans (above z later)
    · rw [List.orderedInsert_of_not_le _ _ before]
      refine List.pairwise_cons.mpr ⟨?_, ih rest new.2⟩
      intro z member
      rcases (List.mem_orderedInsert _).mp member with rfl | later
      · exact lt_of_not_ge before
      · exact above z later

def insert (s : OrderedSet α) (x : α) : OrderedSet α × Bool :=
  if new : x ∉ s.elems then
    (⟨s.elems.orderedInsert (· ≤ ·) x, increasing_orderedInsert s.increasing new⟩, true)
  else (s, false)

def erase (s : OrderedSet α) (x : α) : OrderedSet α × Nat :=
  if x ∈ s.elems then (⟨s.elems.erase x, s.increasing.sublist List.erase_sublist⟩, 1) else (s, 0)

def below (s : OrderedSet α) (x : α) : List α := s.elems.takeWhile (· < x)

def atLeast (s : OrderedSet α) (x : α) : OrderedSet α :=
  ⟨s.elems.dropWhile (· < x), s.increasing.sublist (List.dropWhile_sublist _)⟩

variable {s : OrderedSet α} {x y : α}

theorem not_mem_empty (x : α) : x ∉ (empty : OrderedSet α) := by
  intro member
  cases member

theorem insert_new (new : x ∉ s) : ∃ t, s.insert x = (t, true) ∧ t.size = s.size + 1 ∧
    ∀ y, y ∈ t ↔ y = x ∨ y ∈ s := by
  have new : x ∉ s.elems := new
  refine ⟨_, dif_pos new, ?_, ?_⟩
  · exact List.orderedInsert_length _ _ _
  · intro y
    exact List.mem_orderedInsert _

theorem mem_insert : y ∈ (s.insert x).1 ↔ y = x ∨ y ∈ s := by
  by_cases old : x ∈ s
  · have same : s.insert x = (s, false) := dif_neg (not_not.mpr old)
    rw [same]
    constructor
    · exact Or.inr
    · rintro (rfl | member)
      · exact old
      · exact member
  · obtain ⟨t, inserted, -, members⟩ := insert_new old
    rw [inserted]
    exact members y

theorem erase_member (old : x ∈ s) : ∃ t, s.erase x = (t, 1) ∧ t.size + 1 = s.size ∧
    ∀ y, y ∈ t ↔ y ∈ s ∧ y ≠ x := by
  have old : x ∈ s.elems := old
  have distinct : s.elems.Nodup := s.increasing.imp ne_of_lt
  refine ⟨_, if_pos old, ?_, ?_⟩
  · have length := List.length_erase_of_mem old
    have positive := List.length_pos_of_mem old
    simp only [size]
    omega
  · intro y
    have iff := distinct.mem_erase_iff (a := y) (b := x)
    exact iff.trans and_comm

theorem first_le (first : s.first = some x) (member : y ∈ s) : x ≤ y := by
  obtain ⟨elems, increasing⟩ := s
  cases elems with
  | nil => cases first
  | cons z zs =>
    simp only [OrderedSet.first, List.head?_cons, Option.some.injEq] at first
    subst first
    rcases List.mem_cons.mp member with rfl | later
    · exact le_refl _
    · exact le_of_lt ((List.pairwise_cons.mp increasing).1 y later)

theorem first_mem (first : s.first = some x) : x ∈ s := List.mem_of_head? first

theorem first_none (none : s.first = none) (x : α) : x ∉ s := by
  have empty : s.elems = [] := List.head?_eq_none_iff.mp none
  intro member
  have member : x ∈ s.elems := member
  rw [empty] at member
  cases member

theorem mem_below : y ∈ s.below x ↔ y ∈ s ∧ y < x := by
  obtain ⟨elems, increasing⟩ := s
  show y ∈ elems.takeWhile (· < x) ↔ y ∈ elems ∧ y < x
  induction elems with
  | nil => simp
  | cons z zs ih =>
    obtain ⟨above, rest⟩ := List.pairwise_cons.mp increasing
    by_cases less : z < x
    · rw [List.takeWhile_cons_of_pos (by simpa using less), List.mem_cons, ih rest, List.mem_cons]
      constructor
      · rintro (rfl | ⟨member, small⟩)
        · exact ⟨Or.inl rfl, less⟩
        · exact ⟨Or.inr member, small⟩
      · rintro ⟨rfl | member, small⟩
        · exact Or.inl rfl
        · exact Or.inr ⟨member, small⟩
    · rw [List.takeWhile_cons_of_neg (by simpa using less)]
      constructor
      · intro member
        cases member
      · rintro ⟨member, small⟩
        exfalso
        rcases List.mem_cons.mp member with rfl | later
        · exact less small
        · exact less ((above y later).trans small)

theorem below_append (s : OrderedSet α) (x : α) : s.below x ++ (s.atLeast x).elems = s.elems :=
  List.takeWhile_append_dropWhile

theorem nodup_elems (s : OrderedSet α) : s.elems.Nodup := s.increasing.imp ne_of_lt

theorem nodup_below (s : OrderedSet α) (x : α) : (s.below x).Nodup :=
  s.nodup_elems.sublist (List.takeWhile_sublist _)

theorem mem_atLeast : y ∈ s.atLeast x ↔ y ∈ s ∧ x ≤ y := by
  have whole := below_append s x
  have distinct := s.nodup_elems
  rw [← whole] at distinct
  constructor
  · intro member
    have inside : y ∈ s.elems := by
      rw [← whole]
      exact List.mem_append_right _ member
    refine ⟨inside, ?_⟩
    by_contra small
    have early : y ∈ s.below x := mem_below.mpr ⟨inside, lt_of_not_ge small⟩
    exact (List.nodup_append.mp distinct).2.2 y early y member rfl
  · rintro ⟨member, large⟩
    have member : y ∈ s.elems := member
    rw [← whole] at member
    rcases List.mem_append.mp member with early | late
    · exact absurd (mem_below.mp early).2 (not_lt_of_ge large)
    · exact late

theorem size_below (s : OrderedSet α) (x : α) :
    (s.below x).length + (s.atLeast x).size = s.size := by
  simp only [size, ← below_append s x, List.length_append]

end OrderedSet
end Lib
