import Muduo.Lib.Checked
import Muduo.Lib.LowerBound

/-!
TimeZone: the transitions and local time types of a zone, and the lookup that
toLocalTime() and fromLocalTime() make. An access outside a vector or a string is
undefined and ends the computation here. The binary search runs on whatever order
the transitions have.
-/
namespace Muduo
open Lib
namespace TimeZone

structure Transition where
  gmttime : Int
  localtime : Int
  localtimeIdx : Nat
  deriving DecidableEq, Repr

structure Comp where
  compareGmt : Bool

def Comp.less (comp : Comp) (lhs rhs : Transition) : Bool :=
  if comp.compareGmt then decide (lhs.gmttime < rhs.gmttime)
  else decide (lhs.localtime < rhs.localtime)

def Comp.equal (comp : Comp) (lhs rhs : Transition) : Bool :=
  if comp.compareGmt then decide (lhs.gmttime = rhs.gmttime)
  else decide (lhs.localtime = rhs.localtime)

def Comp.key (comp : Comp) (t : Transition) : Int :=
  if comp.compareGmt then t.gmttime else t.localtime

variable {comp : Comp} {a b : Transition}

theorem Comp.less_iff :
    comp.less a b = true ↔ comp.key a < comp.key b := by
  cases gmt : comp.compareGmt <;> simp [Comp.less, Comp.key, gmt]

theorem Comp.equal_iff :
    comp.equal a b = true ↔ comp.key a = comp.key b := by
  cases gmt : comp.compareGmt <;> simp [Comp.equal, Comp.key, gmt]

theorem Comp.equal_of_not_less (not_less : comp.less a b = false)
    (not_greater : comp.less b a = false) : comp.equal a b = true := by
  rw [← Bool.not_eq_true, Comp.less_iff] at not_less not_greater
  rw [Comp.equal_iff]
  omega

structure Localtime where
  gmtOffset : Int
  isDst : Bool
  arrbIdx : Nat
  deriving DecidableEq, Repr

structure Data where
  transitions : List Transition
  localtimes : List Localtime
  abbreviation : List UInt8
  deriving DecidableEq, Repr

def Data.empty : Data := ⟨[], [], []⟩

def element {α : Type} (xs : List α) (i : Nat) (what : String) : Checked α :=
  match xs[i]? with
  | some x => .ok x
  | none => .error what

theorem element_eq_ok {α : Type} {xs : List α} {i : Nat} {what : String} {x : α} :
    element xs i what = .ok x ↔ xs[i]? = some x := by
  unfold element
  cases xs[i]? <;> simp

def findLocaltime (data : Data) (sentry : Transition) (comp : Comp) : Checked Localtime :=
  if data.transitions.head?.all (comp.less sentry) then
    element data.localtimes 0 "localtimes.front()"
  else do
    let transI := lowerBound (fun t => comp.less t sentry) data.transitions
    if transI ≠ data.transitions.length then
      let found ← element data.transitions transI "*transI"
      if comp.equal sentry found = false then
        assertThat (transI ≠ 0) "transI != data.transitions.begin()"
        let previous ← element data.transitions (transI - 1) "*transI"
        element data.localtimes previous.localtimeIdx "localtimes[transI->localtimeIdx]"
      else
        element data.localtimes found.localtimeIdx "localtimes[transI->localtimeIdx]"
    else
      let back ← element data.transitions (data.transitions.length - 1) "transitions.back()"
      element data.localtimes back.localtimeIdx "localtimes[transitions.back().localtimeIdx]"

end TimeZone

structure TimeZone where
  data_ : Option TimeZone.Data
  deriving DecidableEq, Repr

namespace TimeZone

def valid (tz : TimeZone) : Bool := tz.data_.isSome

def fixed (eastOfUtc : Int) (name : List UInt8) : TimeZone :=
  ⟨some ⟨[], [⟨eastOfUtc, false, 0⟩], name⟩⟩

structure LocalTime (Tm : Type) where
  tm : Tm
  tm_isdst : Bool
  tm_gmtoff : Int
  tm_zone : List UInt8

/-- A string may be read up to and including the place behind its last character. -/
def toLocalTime {Tm : Type} (gmtime_r : Int → Tm) (tz : TimeZone) (seconds : Int) :
    Checked (LocalTime Tm) := do
  assertThat tz.data_.isSome "data_ != NULL"
  let data := tz.data_.getD .empty
  let found ← findLocaltime data ⟨seconds, 0, 0⟩ ⟨true⟩
  assertThat (found.arrbIdx ≤ data.abbreviation.length) "abbreviation[local->arrbIdx]"
  pure ⟨gmtime_r (seconds + found.gmtOffset), found.isDst, found.gmtOffset,
    data.abbreviation.drop found.arrbIdx⟩

/-- There is a local time type, and every transition has one of them. -/
structure Data.Indexed (d : Data) : Prop where
  nonempty : d.localtimes ≠ []
  inside : ∀ tr ∈ d.transitions, tr.localtimeIdx < d.localtimes.length

variable {d : Data}

theorem Data.Indexed.front (indexed : d.Indexed) : ∃ first, d.localtimes[0]? = some first := by
  have positive := List.length_pos_iff.mpr indexed.nonempty
  exact ⟨_, List.getElem?_eq_getElem positive⟩

theorem Data.Indexed.of_transition (indexed : d.Indexed) {i : Nat} {tr : Transition}
    (there : d.transitions[i]? = some tr) : ∃ type, d.localtimes[tr.localtimeIdx]? = some type :=
  ⟨_, List.getElem?_eq_getElem (indexed.inside tr (List.mem_of_getElem? there))⟩

/-- The transition that the search leaves the lookup with: the one it stopped at when that has
    the time of the sentry, and the one before it otherwise. -/
def Data.Picks (d : Data) (comp : Comp) (sentry : Transition) (j : Nat) : Prop :=
  let transI := lowerBound (fun t => comp.less t sentry) d.transitions
  ¬d.transitions.head?.all (comp.less sentry) = true ∧
    if (d.transitions[transI]?).any (comp.equal sentry) then j = transI else j + 1 = transI

section
variable {comp : Comp} {sentry tr : Transition} {j : Nat} {type : Localtime}

theorem findLocaltime_of_picks (picks : d.Picks comp sentry j)
    (there : d.transitions[j]? = some tr) (chosen : d.localtimes[tr.localtimeIdx]? = some type) :
    findLocaltime d sentry comp = .ok type := by
  obtain ⟨late, place⟩ := picks
  have bound := (List.getElem?_eq_some_iff.mp there).1
  unfold findLocaltime
  rw [if_neg late]
  split at place
  · rename_i equal
    rw [← place, there, Option.any_some] at equal
    simp only [← place, if_pos (Nat.ne_of_lt bound), element_eq_ok.mpr there, ok_bind, equal]
    exact element_eq_ok.mpr chosen
  · rename_i differs
    rw [← place] at differs
    dsimp only
    rw [← place]
    split
    · have inside : j + 1 < d.transitions.length := by omega
      have next := List.getElem?_eq_getElem inside
      rw [next, Option.any_some, Bool.not_eq_true] at differs
      rw [element_eq_ok.mpr next, ok_bind, if_pos differs, assertThat_of_true (Nat.succ_ne_zero j),
        ok_bind, Nat.add_sub_cancel, element_eq_ok.mpr there, ok_bind]
      exact element_eq_ok.mpr chosen
    · have last : d.transitions.length - 1 = j := by omega
      rw [last, element_eq_ok.mpr there, ok_bind]
      exact element_eq_ok.mpr chosen

theorem exists_picks (late : ¬d.transitions.head?.all (comp.less sentry) = true) :
    ∃ j tr, d.Picks comp sentry j ∧ d.transitions[j]? = some tr := by
  have le := lowerBound_le (fun t => comp.less t sentry) d.transitions
  by_cases equal : (d.transitions[lowerBound (fun t => comp.less t sentry) d.transitions]?).any
      (comp.equal sentry) = true
  · obtain ⟨tr, there, -⟩ := (Option.any_eq_true _ _).mp equal
    exact ⟨_, tr, ⟨late, by rw [if_pos equal]⟩, there⟩
  · have past : lowerBound (fun t => comp.less t sentry) d.transitions ≠ 0 := by
      intro zero
      cases list : d.transitions with
      | nil => simp [list] at late
      | cons first rest =>
        have here : d.transitions[lowerBound (fun t => comp.less t sentry) d.transitions]? =
            some first := by
          rw [zero, list]
          rfl
        have not_less := lowerBound_here here
        rw [list, List.head?_cons, Option.all_some, Bool.not_eq_true] at late
        rw [here, Option.any_some] at equal
        exact equal (Comp.equal_of_not_less late not_less)
    have inside : lowerBound (fun t => comp.less t sentry) d.transitions - 1 <
        d.transitions.length := by omega
    refine ⟨_, _, ⟨late, ?_⟩, List.getElem?_eq_getElem inside⟩
    rw [if_neg equal]
    omega

theorem findLocaltime_cases (indexed : d.Indexed) (sentry : Transition) (comp : Comp) :
    ∃ type, findLocaltime d sentry comp = .ok type ∧
      (d.localtimes[0]? = some type ∨ ∃ j tr, d.Picks comp sentry j ∧
        d.transitions[j]? = some tr ∧ d.localtimes[tr.localtimeIdx]? = some type) := by
  by_cases early : d.transitions.head?.all (comp.less sentry) = true
  · obtain ⟨first, front⟩ := indexed.front
    exact ⟨first, by rw [findLocaltime, if_pos early]; exact element_eq_ok.mpr front, Or.inl front⟩
  · obtain ⟨j, tr, picks, there⟩ := exists_picks early
    obtain ⟨type, chosen⟩ := indexed.of_transition there
    exact ⟨type, findLocaltime_of_picks picks there chosen,
      Or.inr ⟨j, tr, picks, there, chosen⟩⟩

end

structure Data.Usable (d : Data) : Prop extends d.Indexed where
  named : ∀ t : Int, ∃ found, findLocaltime d ⟨t, 0, 0⟩ ⟨true⟩ = .ok found ∧
    found.arrbIdx < d.abbreviation.length

theorem Data.Indexed.usable_iff (indexed : d.Indexed) :
    d.Usable ↔ (∀ first, d.localtimes[0]? = some first → first.arrbIdx < d.abbreviation.length) ∧
      ∀ (t : Int) (j : Nat) tr type, d.Picks ⟨true⟩ ⟨t, 0, 0⟩ j → d.transitions[j]? = some tr →
        d.localtimes[tr.localtimeIdx]? = some type → type.arrbIdx < d.abbreviation.length := by
  constructor
  · intro usable
    have chosen : ∀ (t : Int) found, findLocaltime d ⟨t, 0, 0⟩ ⟨true⟩ = .ok found →
        found.arrbIdx < d.abbreviation.length := by
      intro t found looked
      obtain ⟨found', ok, inside⟩ := usable.named t
      rw [looked] at ok
      cases ok
      exact inside
    constructor
    · intro first front
      obtain ⟨t, early⟩ : ∃ t : Int,
          d.transitions.head?.all (Comp.less ⟨true⟩ ⟨t, 0, 0⟩) = true := by
        cases d.transitions.head? with
        | none => exact ⟨0, rfl⟩
        | some earliest =>
          refine ⟨earliest.gmttime - 1, ?_⟩
          rw [Option.all_some, Comp.less_iff]
          exact Int.sub_one_lt_of_le (Int.le_refl _)
      apply chosen t first
      rw [findLocaltime, if_pos early]
      exact element_eq_ok.mpr front
    · intro t j tr type picks there type_there
      exact chosen t type (findLocaltime_of_picks picks there type_there)
  · rintro ⟨first, later⟩
    refine ⟨indexed, ?_⟩
    intro t
    obtain ⟨type, ok, front | ⟨j, tr, picks, there, chosen⟩⟩ :=
      findLocaltime_cases indexed ⟨t, 0, 0⟩ ⟨true⟩
    · exact ⟨type, ok, first type front⟩
    · exact ⟨type, ok, later t j tr type picks there chosen⟩

/-! ### Periods -/

def Data.period (d : Data) : Nat → Option Localtime
  | 0 => d.localtimes[0]?
  | k + 1 => d.transitions[k]?.bind fun tr => d.localtimes[tr.localtimeIdx]?

def Data.Increasing (d : Data) (comp : Comp) : Prop :=
  d.transitions.Pairwise fun a b => comp.key a < comp.key b

structure Data.InPeriod (d : Data) (comp : Comp) (x : Int) (k : Nat) : Prop where
  inside : k ≤ d.transitions.length
  started : ∀ j tr, j + 1 = k → d.transitions[j]? = some tr → comp.key tr ≤ x
  ends : ∀ tr, d.transitions[k]? = some tr → x < comp.key tr

theorem exists_inPeriod (d : Data) (comp : Comp) (x : Int) : ∃ k, d.InPeriod comp x k := by
  let after (tr : Transition) : Bool := decide (x < comp.key tr)
  refine ⟨d.transitions.findIdx after, List.findIdx_le_length, ?_, ?_⟩
  · intro j tr last there
    obtain ⟨bound, rfl⟩ := List.getElem?_eq_some_iff.mp there
    have before : after d.transitions[j] = false := List.not_of_lt_findIdx (by omega)
    simpa [after] using before
  · intro tr there
    obtain ⟨bound, rfl⟩ := List.getElem?_eq_some_iff.mp there
    have here : after (d.transitions[d.transitions.findIdx after]) = true := List.findIdx_getElem
    simpa [after] using here

section
variable {comp : Comp} (increasing : d.Increasing comp) {sentry tr : Transition} {j : Nat}
include increasing

theorem Data.Increasing.not_before_first (here : d.transitions[j]? = some tr)
    (le : comp.key tr ≤ comp.key sentry) :
    ¬d.transitions.head?.all (comp.less sentry) = true := by
  intro early
  cases list : d.transitions with
  | nil => simp [list] at here
  | cons first rest =>
    rw [list, List.head?_cons, Option.all_some, Comp.less_iff] at early
    rw [Data.Increasing, list] at increasing
    rw [list] at here
    cases j with
    | zero =>
      cases here
      omega
    | succ j =>
      have less := (List.pairwise_cons.mp increasing).1 tr (List.mem_of_getElem? here)
      omega

theorem Data.Increasing.lowerBound_eq (inside : j ≤ d.transitions.length)
    (low : ∀ i tr, i + 1 = j → d.transitions[i]? = some tr → comp.key tr < comp.key sentry)
    (high : ∀ tr, d.transitions[j]? = some tr → comp.key sentry ≤ comp.key tr) :
    lowerBound (fun t => comp.less t sentry) d.transitions = j := by
  refine lowerBound_eq_of_sorted increasing ?_ inside ?_ ?_
  · intro a b before less
    rw [Comp.less_iff] at less ⊢
    omega
  · intro i tr same found
    exact Comp.less_iff.mpr (low i tr same found)
  · intro tr found
    have later := high tr found
    rw [← Bool.not_eq_true, Comp.less_iff]
    omega

theorem Data.Increasing.picks (within : d.InPeriod comp (comp.key sentry) (j + 1)) :
    d.Picks comp sentry j := by
  have bound : j < d.transitions.length := within.inside
  have here := List.getElem?_eq_getElem bound
  have begun := within.started j _ rfl here
  refine ⟨increasing.not_before_first here begun, ?_⟩
  rcases Int.lt_or_eq_of_le begun with past | exactly
  · have place : lowerBound (fun t => comp.less t sentry) d.transitions = j + 1 := by
      refine increasing.lowerBound_eq bound ?_ ?_
      · intro i before same found
        cases same
        cases here.symm.trans found
        exact past
      · intro next found
        exact Int.le_of_lt (within.ends next found)
    have differs : ¬(d.transitions[j + 1]?).any (comp.equal sentry) = true := by
      intro equal
      obtain ⟨next, found, same⟩ := (Option.any_eq_true _ _).mp equal
      exact Int.ne_of_lt (within.ends next found) (Comp.equal_iff.mp same)
    rw [place, if_neg differs]
  · have place : lowerBound (fun t => comp.less t sentry) d.transitions = j := by
      refine increasing.lowerBound_eq (Nat.le_of_lt bound) ?_ ?_
      · intro i before same found
        subst same
        obtain ⟨_, rfl⟩ := List.getElem?_eq_some_iff.mp found
        have less := List.pairwise_iff_getElem.mp increasing i (i + 1) (by omega) bound (by omega)
        omega
      · intro x found
        cases here.symm.trans found
        omega
    have equal : (d.transitions[j]?).any (comp.equal sentry) = true := by
      rw [here, Option.any_some]
      exact Comp.equal_iff.mpr exactly.symm
    rw [place, if_pos equal]

theorem findLocaltime_eq {x : Int} {k : Nat} (within : d.InPeriod comp x k) {type : Localtime}
    (there : d.period k = some type) (time : comp.key sentry = x) :
    findLocaltime d sentry comp = .ok type := by
  subst time
  cases k with
  | zero =>
    have early : d.transitions.head?.all (comp.less sentry) = true := by
      cases list : d.transitions with
      | nil => rfl
      | cons first rest =>
        rw [List.head?_cons, Option.all_some, Comp.less_iff]
        exact within.ends first (by rw [list]; rfl)
    rw [findLocaltime, if_pos early]
    exact element_eq_ok.mpr there
  | succ j =>
    obtain ⟨tr, here, chosen⟩ := Option.bind_eq_some_iff.mp there
    exact findLocaltime_of_picks (increasing.picks within) here chosen

end

theorem Data.InPeriod.before {comp : Comp} {x : Int} {k i : Nat} (within : d.InPeriod comp x k)
    (increasing : d.Increasing comp) (le : k ≤ i) {later : Transition}
    (there : d.transitions[i]? = some later) : x < comp.key later := by
  obtain ⟨bound, rfl⟩ := List.getElem?_eq_some_iff.mp there
  have first := within.ends _ (List.getElem?_eq_getElem (Nat.lt_of_le_of_lt le bound))
  rcases Nat.eq_or_lt_of_le le with same | after
  · subst same
    exact first
  · have less := List.pairwise_iff_getElem.mp increasing k i (by omega) bound after
    exact Int.lt_trans first less

/-- The lookup finds the type of the last transition that is not after the sentry, and the
    first type where there is none. -/
theorem findLocaltime_picks_period {comp : Comp} (indexed : d.Indexed)
    (increasing : d.Increasing comp) (sentry : Transition) :
    ∃ type, findLocaltime d sentry comp = .ok type ∧
      ((∃ (j : Nat) (tr : Transition), d.transitions[j]? = some tr ∧
          comp.key tr ≤ comp.key sentry ∧
          (∀ (i : Nat) (later : Transition), j < i → d.transitions[i]? = some later →
            comp.key sentry < comp.key later) ∧
          d.localtimes[tr.localtimeIdx]? = some type) ∨
        (∀ tr ∈ d.transitions, comp.key sentry < comp.key tr) ∧
          d.localtimes[0]? = some type) := by
  obtain ⟨k, within⟩ := exists_inPeriod d comp (comp.key sentry)
  cases k with
  | zero =>
    obtain ⟨type, front⟩ := indexed.front
    have found : findLocaltime d sentry comp = .ok type :=
      findLocaltime_eq increasing within front rfl
    have none_ : ∀ tr ∈ d.transitions, comp.key sentry < comp.key tr := by
      intro tr member
      obtain ⟨i, there⟩ := List.mem_iff_getElem?.mp member
      exact within.before increasing (Nat.zero_le i) there
    exact ⟨type, found, Or.inr ⟨none_, front⟩⟩
  | succ j =>
    have here := List.getElem?_eq_getElem within.inside
    obtain ⟨type, chosen⟩ := indexed.of_transition here
    have period : d.period (j + 1) = some type := Option.bind_eq_some_iff.mpr ⟨_, here, chosen⟩
    have found : findLocaltime d sentry comp = .ok type :=
      findLocaltime_eq increasing within period rfl
    have last : ∀ (i : Nat) later, j < i → d.transitions[i]? = some later →
        comp.key sentry < comp.key later := by
      intro i later after there
      exact within.before increasing after there
    exact ⟨type, found, Or.inl ⟨j, _, here, within.started j _ rfl here, last, chosen⟩⟩

def threePeriods : Data :=
  ⟨[⟨100, 3700, 1⟩, ⟨200, 200, 0⟩], [⟨0, false, 0⟩, ⟨3600, true, 0⟩], [0]⟩

theorem findLocaltime_picks_period_at_first :
    threePeriods.Indexed ∧ threePeriods.Increasing ⟨true⟩ ∧
      ∃ type, findLocaltime threePeriods ⟨100, 0, 0⟩ ⟨true⟩ = .ok type ∧ type.isDst = true := by
  have indexed : threePeriods.Indexed := by
    constructor
    · decide
    · decide
  have increasing : threePeriods.Increasing ⟨true⟩ := by
    simp [Data.Increasing, threePeriods, Comp.key]
  obtain ⟨type, found, -⟩ := findLocaltime_picks_period indexed increasing ⟨100, 0, 0⟩
  have computed : (findLocaltime threePeriods ⟨100, 0, 0⟩ ⟨true⟩).map Localtime.isDst = .ok true := by
    decide +kernel
  rw [found] at computed
  exact ⟨indexed, increasing, type, found, Except.ok.inj computed⟩

theorem toLocalTime_defined {Tm : Type} (gmtime_r : Int → Tm) (usable : d.Usable) (seconds : Int) :
    ∃ local_, toLocalTime gmtime_r ⟨some d⟩ seconds = .ok local_ := by
  obtain ⟨found, ok, inside⟩ := usable.named seconds
  simp [toLocalTime, ok, Nat.le_of_lt inside]

end TimeZone
end Muduo
