import Mathlib.Logic.Relation

/-!
Labelled machines with a partial step function. A run is a list of labels; a
label that is not enabled stops the run. The rules below turn a fact about one
step into a fact about every run, and about every run whose steps all meet a
condition on the state before the step.
-/
namespace Lib

structure Machine (State Label : Type) where
  step : State → Label → Option State

namespace Machine
variable {State Label : Type} (m : Machine State Label) {ls : List Label} {s s' : State}

def run : State → List Label → Option State
  | s, [] => some s
  | s, l :: ls => (m.step s l).bind fun t => run t ls

theorem run_cons_eq_some {l : Label} :
    m.run s (l :: ls) = some s' ↔ ∃ t, m.step s l = some t ∧ m.run t ls = some s' := by
  simp [run, Option.bind_eq_some_iff]

theorem run_append (s : State) (ls ks : List Label) :
    m.run s (ls ++ ks) = (m.run s ls).bind fun t => m.run t ks := by
  induction ls generalizing s with
  | nil => rfl
  | cons l ls ih =>
    simp only [List.cons_append, run, Option.bind_assoc]
    congr 1
    funext t
    exact ih t

/-- `allowed` is asked of the state before each step and of the label taken. -/
def Within (allowed : State → Label → Prop) : State → List Label → Prop
  | _, [] => True
  | s, l :: ls => allowed s l ∧ ∀ t, m.step s l = some t → Within allowed t ls

theorem within_invariant (allowed : State → Label → Prop) (inv : State → Prop)
    (kept : ∀ s l t, inv s → allowed s l → m.step s l = some t → inv t) (start : inv s)
    (within : m.Within allowed s ls) (ran : m.run s ls = some s') : inv s' := by
  induction ls generalizing s with
  | nil =>
    simp only [run, Option.some.injEq] at ran
    exact ran ▸ start
  | cons l ls ih =>
    obtain ⟨t, first, rest⟩ := (m.run_cons_eq_some).mp ran
    exact ih (kept s l t start within.1 first) (within.2 t first) rest

theorem within_all (s : State) (ls : List Label) : m.Within (fun _ _ => True) s ls := by
  induction ls generalizing s with
  | nil => trivial
  | cons l ls ih => exact ⟨trivial, fun t _ => ih t⟩

theorem run_invariant {inv : State → Prop} (kept : ∀ s l t, inv s → m.step s l = some t → inv t)
    (start : inv s) (ran : m.run s ls = some s') : inv s' :=
  m.within_invariant (fun _ _ => True) inv (fun s l t h _ st => kept s l t h st) start
    (m.within_all s ls) ran

theorem within_implies (allowed allowed' : State → Label → Prop) (inv : State → Prop)
    (kept : ∀ s l t, inv s → allowed s l → m.step s l = some t → inv t)
    (enough : ∀ s l, inv s → allowed s l → allowed' s l) (start : inv s)
    (within : m.Within allowed s ls) : m.Within allowed' s ls := by
  induction ls generalizing s with
  | nil => trivial
  | cons l ls ih =>
    refine ⟨enough s l start within.1, ?_⟩
    intro t taken
    exact ih (kept s l t start within.1 taken) (within.2 t taken)

def Leads (s t : State) : Prop := ∃ ls, m.run s ls = some t

theorem leads_refl (s : State) : m.Leads s s := ⟨[], rfl⟩

theorem leads_step {t u : State} {l : Label} (before : m.Leads s t) (taken : m.step t l = some u) :
    m.Leads s u := by
  obtain ⟨ls, ran⟩ := before
  refine ⟨ls ++ [l], ?_⟩
  rw [run_append, ran, Option.bind_some, run, taken]
  rfl

def checkWithin (allowed : State → Label → Prop) [∀ s l, Decidable (allowed s l)] :
    State → List Label → Bool
  | _, [] => true
  | s, l :: ls => decide (allowed s l) && (m.step s l).all fun t => checkWithin allowed t ls

theorem within_of_check {allowed : State → Label → Prop} [∀ s l, Decidable (allowed s l)]
    (checked : m.checkWithin allowed s ls = true) :
    m.Within allowed s ls := by
  induction ls generalizing s with
  | nil => trivial
  | cons l ls ih =>
    simp only [checkWithin, Bool.and_eq_true, decide_eq_true_eq] at checked
    refine ⟨checked.1, ?_⟩
    intro t taken
    rw [taken] at checked
    exact ih checked.2

theorem within_of_labels {ok : Label → Prop} (all : ∀ l ∈ ls, ok l) :
    m.Within (fun _ l => ok l) s ls := by
  induction ls generalizing s with
  | nil => trivial
  | cons l ls ih =>
    exact ⟨all l (by simp), fun t _ => ih (fun k hk => all k (by simp [hk]))⟩

/-- `holds` is asked of every state along the run. -/
def Always (holds : State → Prop) : State → List Label → Prop
  | s, [] => holds s
  | s, l :: ls => holds s ∧ ∀ t, m.step s l = some t → Always holds t ls

theorem always_start {holds : State → Prop} (always : m.Always holds s ls) : holds s := by
  cases ls with
  | nil => exact always
  | cons l ls => exact always.1

theorem always_invariant {holds inv : State → Prop}
    (kept : ∀ s l t, inv s → holds s → holds t → m.step s l = some t → inv t) (start : inv s)
    (always : m.Always holds s ls) (ran : m.run s ls = some s') : inv s' := by
  induction ls generalizing s with
  | nil =>
    simp only [run, Option.some.injEq] at ran
    exact ran ▸ start
  | cons l ls ih =>
    obtain ⟨t, taken, rest⟩ := (m.run_cons_eq_some).mp ran
    have later := always.2 t taken
    exact ih (kept s l t start always.1 (m.always_start later) taken) later rest

/-- A condition on steps is met when any other step leads to where no run comes away from
    with the property of states kept. -/
theorem within_of_escape (given allowed : State → Label → Prop) (inv holds sunk : State → Prop)
    (kept : ∀ s l t, inv s → holds s → holds t → given s l → m.step s l = some t →
      inv t ∧ (sunk s ∨ ¬allowed s l → sunk t)) (start : inv s) (always : m.Always holds s ls)
    (assumed : m.Within given s ls) (ran : m.run s ls = some s') (clear : ¬sunk s') :
    ¬sunk s ∧ m.Within allowed s ls := by
  induction ls generalizing s with
  | nil =>
    simp only [run, Option.some.injEq] at ran
    exact ⟨ran ▸ clear, trivial⟩
  | cons l ls ih =>
    obtain ⟨t, taken, rest⟩ := (m.run_cons_eq_some).mp ran
    have later := always.2 t taken
    obtain ⟨inv_t, sinks⟩ :=
      kept s l t start always.1 (m.always_start later) assumed.1 taken
    obtain ⟨afloat, within⟩ := ih inv_t later (assumed.2 t taken) rest
    refine ⟨fun sunk => afloat (sinks (Or.inl sunk)), ?_, ?_⟩
    · apply Classical.byContradiction
      intro refused
      exact afloat (sinks (Or.inr refused))
    · intro u same
      obtain rfl : t = u := Option.some.inj (taken.symm.trans same)
      exact within

/-- A condition on steps is exact for a property of states when allowed steps keep the
    property and other steps break it. `given` is what the runs may assume anyway. -/
theorem always_iff_within_given (given allowed : State → Label → Prop) (inv holds : State → Prop)
    (kept : ∀ s l t, inv s → holds s → given s l → allowed s l → m.step s l = some t →
      inv t ∧ holds t)
    (broken : ∀ s l t, inv s → holds s → given s l → ¬allowed s l → m.step s l = some t →
      ¬holds t) (start : inv s) (first : holds s) (assumed : m.Within given s ls)
    (ran : m.run s ls = some s') :
    m.Always holds s ls ↔ m.Within allowed s ls := by
  induction ls generalizing s with
  | nil => exact ⟨fun _ => trivial, fun _ => first⟩
  | cons l ls ih =>
    obtain ⟨t, taken, rest⟩ := (m.run_cons_eq_some).mp ran
    have later := assumed.2 t taken
    constructor
    · intro always
      have after := always.2 t taken
      have allow : allowed s l := by
        apply Classical.byContradiction
        intro refused
        exact broken s l t start first assumed.1 refused taken (m.always_start after)
      refine ⟨allow, ?_⟩
      intro u same
      obtain rfl : t = u := Option.some.inj (taken.symm.trans same)
      obtain ⟨inv_t, holds_t⟩ := kept s l t start first assumed.1 allow taken
      exact (ih inv_t holds_t later rest).mp after
    · intro within
      refine ⟨first, ?_⟩
      intro u same
      obtain rfl : t = u := Option.some.inj (taken.symm.trans same)
      obtain ⟨inv_t, holds_t⟩ := kept s l t start first assumed.1 within.1 taken
      exact (ih inv_t holds_t later rest).mpr (within.2 t taken)

theorem always_iff_within (allowed : State → Label → Prop) (inv holds : State → Prop)
    (kept : ∀ s l t, inv s → holds s → allowed s l → m.step s l = some t → inv t ∧ holds t)
    (broken : ∀ s l t, inv s → holds s → ¬allowed s l → m.step s l = some t → ¬holds t)
    (start : inv s) (first : holds s) (ran : m.run s ls = some s') :
    m.Always holds s ls ↔ m.Within allowed s ls :=
  m.always_iff_within_given (fun _ _ => True) allowed inv holds
    (fun s l t h p _ => kept s l t h p) (fun s l t h p _ => broken s l t h p) start first
    (m.within_all s ls) ran

/-- A condition on steps is exact for running to the end, when allowed steps can be taken
    and any other step fails for good. -/
theorem runs_iff_within (allowed : State → Label → Prop) (inv failed : State → Prop)
    (sound : ∀ s, inv s → ¬failed s) (stops : ∀ s l, failed s → m.step s l = none)
    (taken : ∀ s l, inv s → ∃ t, m.step s l = some t ∧
      (allowed s l ∧ inv t ∨ ¬allowed s l ∧ failed t)) (start : inv s) (ls : List Label) :
    (∃ s', m.run s ls = some s' ∧ ¬failed s') ↔ m.Within allowed s ls := by
  induction ls generalizing s with
  | nil => exact ⟨fun _ => trivial, fun _ => ⟨s, rfl, sound s start⟩⟩
  | cons l ls ih =>
    obtain ⟨t, first, ⟨allow, inv_t⟩ | ⟨refuse, failed_t⟩⟩ := taken s l start
    · simp only [run, first, Option.bind_some, ih inv_t, Within, allow, true_and,
        Option.some.injEq, forall_eq']
    · refine ⟨?_, fun within => absurd within.1 refuse⟩
      rintro ⟨s', ran, unfailed⟩
      simp only [run, first, Option.bind_some] at ran
      cases ls with
      | nil => exact absurd failed_t (Option.some.inj ran ▸ unfailed)
      | cons k ls => simp [run, stops t k failed_t] at ran

end Machine
end Lib
