import Muduo.Lib.Checked

/-!
A while loop whose body says whether to go on. The loop is run with fuel, and has no
result when the fuel does not last. Further below, a loop over a list with a body that
may itself have no result.
-/
namespace Lib
variable {σ : Type} (body : σ → Checked (σ × Bool)) {fuel : Nat} {s : σ}

def whileLoop : Nat → σ → Checked (Option σ)
  | 0, _ => .ok none
  | fuel + 1, s => do
    let (t, again) ← body s
    if again then whileLoop fuel t else pure (some t)

variable {body}

theorem whileLoop_stop {t : σ} (positive : 0 < fuel) (stop : body s = .ok (t, false)) :
    whileLoop body fuel s = .ok (some t) := by
  obtain ⟨fuel, rfl⟩ := Nat.exists_eq_succ_of_ne_zero (Nat.ne_of_gt positive)
  simp [whileLoop, stop]

theorem whileLoop_again {t : σ} (positive : 0 < fuel) (again : body s = .ok (t, true)) :
    whileLoop body fuel s = whileLoop body (fuel - 1) t := by
  obtain ⟨fuel, rfl⟩ := Nat.exists_eq_succ_of_ne_zero (Nat.ne_of_gt positive)
  simp [whileLoop, again]

theorem whileLoop_more {more : Nat} {t : σ} (ran : whileLoop body fuel s = .ok (some t))
    (le : fuel ≤ more) : whileLoop body more s = .ok (some t) := by
  induction fuel generalizing s more with
  | zero => cases ran
  | succ fuel ih =>
    obtain ⟨more, rfl⟩ : ∃ k, more = k + 1 := ⟨more - 1, by omega⟩
    unfold whileLoop at ran ⊢
    obtain ⟨⟨u, again⟩, first, rest⟩ := bind_eq_ok.mp ran
    rw [first, ok_bind]
    cases again with
    | false => exact rest
    | true => exact ih rest (by omega)

/-- A loop ends when every turn that goes on keeps an invariant and lowers a measure. -/
theorem whileLoop_ends (inv : σ → Prop) (measure : σ → Nat)
    (lower : ∀ s t, inv s → body s = .ok (t, true) → inv t ∧ measure t < measure s) (start : inv s)
    (enough : measure s < fuel) :
    whileLoop body fuel s ≠ .ok none := by
  induction fuel generalizing s with
  | zero => exact absurd enough (Nat.not_lt_zero _)
  | succ fuel ih =>
    unfold whileLoop
    intro unended
    obtain ⟨⟨t, again⟩, first, rest⟩ := bind_eq_ok.mp unended
    cases again with
    | false => cases rest
    | true =>
      obtain ⟨inv_t, less⟩ := lower s t start first
      exact ih inv_t (by omega) rest

theorem whileLoop_congr {other : σ → Checked (σ × Bool)} (inv : σ → Prop)
    (same : ∀ s, inv s → body s = other s) (kept : ∀ s t, inv s → other s = .ok (t, true) → inv t)
    (start : inv s) :
    whileLoop body fuel s = whileLoop other fuel s := by
  induction fuel generalizing s with
  | zero => rfl
  | succ fuel ih =>
    unfold whileLoop
    rw [same s start]
    cases turn : other s with
    | error e => rfl
    | ok next =>
      obtain ⟨t, again⟩ := next
      simp only [ok_bind]
      cases again with
      | false => rfl
      | true => exact ih (kept s t start turn)

variable {α : Type} (feed : σ → α → Checked (Option σ))

def forEach : List α → σ → Checked (Option σ)
  | [], s => .ok (some s)
  | x :: xs, s => do
    match ← feed s x with
    | none => pure none
    | some t => forEach xs t

variable {feed}

/-- A property of the state and of the elements that it has been fed. -/
theorem forEach_rule {inv : List α → σ → Prop}
    (step : ∀ past s x, inv past s → ∃ t, feed s x = .ok (some t) ∧ inv (past ++ [x]) t)
    (past xs : List α) (start : inv past s) :
    ∃ t, forEach feed xs s = .ok (some t) ∧ inv (past ++ xs) t := by
  induction xs generalizing past s with
  | nil => exact ⟨s, rfl, by rwa [List.append_nil]⟩
  | cons x xs ih =>
    obtain ⟨t, ran, next⟩ := step past s x start
    obtain ⟨u, rest, last⟩ := ih (past ++ [x]) next
    refine ⟨u, ?_, ?_⟩
    · simp only [forEach, ran, ok_bind]
      exact rest
    · rw [List.append_cons]
      exact last

end Lib
