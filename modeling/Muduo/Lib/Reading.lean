import Mathlib.Data.List.Basic

/-!
Readers that take elements off an input while they work on other data. A reader may
end with an error; what it did to the data until then stays. `Reads` says of a reader
that it succeeds on the codes of certain values and on nothing else.
-/
namespace Lib

structure Reading (β σ : Type) where
  rest : List β
  data : σ

abbrev Reader (ε β σ α : Type) := EStateM ε (Reading β σ) α

namespace Reader
variable {ε β σ α γ ω : Type} {part : σ → ω}

def collect : Nat → Reader ε β σ α → Reader ε β σ (List α)
  | 0, _ => pure []
  | n + 1, m => do
    let a ← m
    let rest ← collect n m
    pure (a :: rest)

def dataAfter (m : Reader ε β σ α) (s : Reading β σ) : σ :=
  match m s with
  | .ok _ t => t.data
  | .error _ t => t.data

variable {m : Reader ε β σ α} {f : α → Reader ε β σ γ} {s t : Reading β σ}

theorem pure_eq_ok {a b : α} : (pure a : Reader ε β σ α) s = .ok b t ↔ a = b ∧ s = t := by
  show EStateM.Result.ok a s = .ok b t ↔ _
  simp

theorem bind_eq_ok {b : γ} :
    (m >>= f) s = .ok b t ↔ ∃ a u, m s = .ok a u ∧ f a u = .ok b t := by
  show EStateM.bind m f s = .ok b t ↔ _
  unfold EStateM.bind
  cases m s with
  | ok a u => simp
  | error e u => simp

theorem bind_eq_error {e : ε} :
    (m >>= f) s = .error e t ↔
      m s = .error e t ∨ ∃ a u, m s = .ok a u ∧ f a u = .error e t := by
  show EStateM.bind m f s = .error e t ↔ _
  unfold EStateM.bind
  cases m s with
  | ok a u => simp
  | error e u => simp

/-- The reader takes the code of some `w` off the input and changes the data by `effect`;
    on any other input it fails. -/
def Reads (m : Reader ε β σ α) (code : ω → List β) (value : ω → α) (effect : ω → σ → σ) : Prop :=
  ∀ s a t, m s = .ok a t ↔
    ∃ w, a = value w ∧ s.rest = code w ++ t.rest ∧ t.data = effect w s.data

theorem collect_reads {code : ω → List β} {value : ω → α} {effect : ω → σ → σ}
    (reads : Reads m code value effect) {n : Nat} {as : List α} :
    collect n m s = .ok as t ↔ ∃ ws : List ω, ws.length = n ∧ as = ws.map value ∧
      s.rest = ws.flatMap code ++ t.rest ∧ t.data = ws.foldl (fun d w => effect w d) s.data := by
  induction n generalizing s as with
  | zero =>
    simp only [collect, pure_eq_ok, List.length_eq_zero_iff]
    constructor
    · rintro ⟨rfl, rfl⟩
      exact ⟨[], rfl, rfl, rfl, rfl⟩
    · rintro ⟨ws, rfl, rfl, rest, data⟩
      obtain ⟨u, d⟩ := s
      obtain ⟨v, e⟩ := t
      simp only [List.flatMap_nil, List.nil_append, List.foldl_nil] at rest data
      rw [rest, data]
      exact ⟨rfl, rfl⟩
  | succ n ih =>
    simp only [collect, bind_eq_ok, pure_eq_ok]
    constructor
    · rintro ⟨a, u, first, others, v, later, rfl, rfl⟩
      obtain ⟨w, rfl, rest, data⟩ := (reads _ _ _).mp first
      obtain ⟨ws, length, rfl, rest', data'⟩ := ih.mp later
      refine ⟨w :: ws, by rw [List.length_cons, length], rfl, ?_, ?_⟩
      · rw [rest, rest', List.flatMap_cons, List.append_assoc]
      · rw [data', data]
        rfl
    · rintro ⟨ws, length, rfl, rest, data⟩
      cases ws with
      | nil => cases length
      | cons w ws =>
        rw [List.flatMap_cons, List.append_assoc] at rest
        refine ⟨value w, ⟨ws.flatMap code ++ t.rest, effect w s.data⟩, ?_, ws.map value, t, ?_,
          rfl, rfl⟩
        · exact (reads _ _ _).mpr ⟨w, rfl, rest, rfl⟩
        · exact ih.mpr ⟨ws, by simpa using length, rfl, rfl, data⟩

/-- Whether it succeeds or not, the reader leaves a part of the data alone. -/
def Keeps (part : σ → ω) (m : Reader ε β σ α) : Prop := ∀ s, part (m.dataAfter s) = part s.data

theorem keeps_intro (ok : ∀ s a t, m s = .ok a t → part t.data = part s.data)
    (error : ∀ s e t, m s = .error e t → part t.data = part s.data) : Keeps part m := by
  intro s
  unfold dataAfter
  cases ran : m s with
  | ok a t => exact ok s a t ran
  | error e t => exact error s e t ran

theorem keeps_bind (first : Keeps part m) (second : ∀ a, Keeps part (f a)) :
    Keeps part (m >>= f) := by
  intro s
  have before := first s
  show part (match EStateM.bind m f s with | .ok _ t => t.data | .error _ t => t.data) = _
  unfold dataAfter at before
  unfold EStateM.bind
  cases ran : m s with
  | ok a u =>
    rw [ran] at before
    exact (second a u).trans before
  | error e u =>
    rw [ran] at before
    exact before

theorem keeps_pure (a : α) : Keeps part (pure a : Reader ε β σ α) := fun _ => rfl

theorem keeps_collect (each : Keeps part m) (n : Nat) :
    Keeps part (collect n m) := by
  induction n with
  | zero => exact keeps_pure []
  | succ n ih => exact keeps_bind each fun _ => keeps_bind ih fun _ => keeps_pure _

theorem keeps_forM {body : α → Reader ε β σ Unit} (xs : List α)
    (each : ∀ x ∈ xs, Keeps part (body x)) : Keeps part (xs.forM body) := by
  induction xs with
  | nil => exact keeps_pure ()
  | cons x xs ih =>
    refine keeps_bind (each x List.mem_cons_self) fun _ => ih ?_
    intro y member
    exact each y (List.mem_cons_of_mem _ member)

theorem Keeps.of_error (keeps : Keeps part m) {e : ε} (failed : m s = .error e t) :
    part t.data = part s.data := by
  have after := keeps s
  unfold dataAfter at after
  rwa [failed] at after

end Reader
end Lib
