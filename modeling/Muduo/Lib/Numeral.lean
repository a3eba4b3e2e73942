import Mathlib.Data.Nat.Digits.Defs

/-!
Positional numerals. The base is the number of glyphs, and a digit is a position in their list.
A numeral is canonical if it has a digit, and none that is a zero in front of another.
-/
namespace Lib

def horner (base : Nat) (ds : List Nat) : Nat := ds.foldl (fun v d => v * base + d) 0

structure Spells (glyphs : List Char) (n : Nat) (text : List Char) (ds : List Nat) : Prop where
  read : ds.map (glyphs[·]?) = text.map some
  digit : ds ≠ []
  leading : ds.head? = some 0 → ds = [0]
  value : horner glyphs.length ds = n

def Canonical (glyphs : List Char) (n : Nat) (text : List Char) : Prop :=
  ∃ ds, Spells glyphs n text ds

variable {glyphs text : List Char} {n d : Nat} {c : Char} {ds : List Nat}

theorem horner_concat (base : Nat) (ds : List Nat) (d : Nat) :
    horner base (ds ++ [d]) = horner base ds * base + d := by
  simp [horner]

theorem spells_digit (read : glyphs[n]? = some c) : Spells glyphs n [c] [n] := by
  constructor
  · simp [read]
  · simp
  · intro zero
    simpa using zero
  · simp [horner]

theorem Spells.concat (spells : Spells glyphs n text ds) (pos : 0 < n)
    (read : glyphs[d]? = some c) :
    Spells glyphs (n * glyphs.length + d) (text ++ [c]) (ds ++ [d]) := by
  constructor
  · simp [spells.read, read]
  · simp
  · intro zero
    have front : ds.head? = some 0 := by
      cases ds with
      | nil => exact absurd rfl spells.digit
      | cons e es => exact zero
    have value := spells.value
    simp only [spells.leading front, horner, List.foldl_cons, List.foldl_nil] at value
    omega
  · simp only [horner_concat, spells.value]

theorem canonical_toDigits {base : Nat} {glyph : Char → Char} (more : 1 < base)
    (size : glyphs.length = base)
    (read : ∀ d < base, glyphs[d]? = some (glyph d.digitChar)) (n : Nat) :
    Canonical glyphs n ((Nat.toDigits base n).map glyph) := by
  induction n using Nat.strongRecOn with
  | ind n ih =>
    rcases Nat.lt_or_ge n base with last | rest
    · simp only [Nat.toDigits_of_lt_base last, List.map_singleton]
      exact ⟨[n], spells_digit (read n last)⟩
    · have pos : 0 < n / base := Nat.div_pos rest (by omega)
      have small : n % base < base := Nat.mod_lt n (by omega)
      obtain ⟨ds, spells⟩ := ih (n / base) (Nat.div_lt_self (by omega) more)
      have longer := spells.concat pos (read _ small)
      simp only [size, Nat.div_add_mod'] at longer
      simp only [Nat.toDigits_of_base_le more rest, List.map_append, List.map_singleton]
      exact ⟨_, longer⟩

end Lib
