import Mathlib.Data.Option.Basic

/-!
Computations that may stop at a failed assertion. The error is the text of the
asserted expression, as assert(3) prints it. Nothing here continues after a
failure.
-/
namespace Lib
variable {α β : Type}

abbrev Checked (α : Type) := Except String α

def assertThat (p : Prop) [Decidable p] (text : String) : Checked Unit :=
  if p then .ok () else .error text

@[simp] theorem assertThat_of_true {p : Prop} [Decidable p] {text : String} (h : p) :
    assertThat p text = .ok () := by simp [assertThat, h]

@[simp] theorem assertThat_of_false {p : Prop} [Decidable p] {text : String} (h : ¬p) :
    assertThat p text = .error text := by simp [assertThat, h]

theorem assertThat_eq_ok {p : Prop} [Decidable p] {text : String} :
    assertThat p text = .ok () ↔ p := by
  by_cases h : p <;> simp [h]

@[simp] theorem ok_bind (a : α) (f : α → Checked β) :
    ((.ok a : Checked α) >>= f) = f a := rfl

@[simp] theorem error_bind (e : String) (f : α → Checked β) :
    ((.error e : Checked α) >>= f) = .error e := rfl

@[simp] theorem pure_eq_ok (a : α) : (pure a : Checked α) = .ok a := rfl

theorem bind_eq_ok {x : Checked α} {f : α → Checked β} {b : β} :
    (x >>= f) = .ok b ↔ ∃ a, x = .ok a ∧ f a = .ok b := by
  cases x with
  | error e => simp
  | ok a => simp

theorem map_eq_ok {x : Checked α} {f : α → β} {b : β} :
    x.map f = .ok b ↔ ∃ a, x = .ok a ∧ f a = b := by
  cases x with
  | error e => simp [Except.map]
  | ok a => simp [Except.map]

theorem holds_of_ok {x : Checked α} {a : α} {P : α → Prop} (shown : ∃ b, x = .ok b ∧ P b)
    (ran : x = .ok a) : P a := by
  obtain ⟨b, same, holds⟩ := shown
  rw [ran] at same
  cases same
  exact holds

end Lib
