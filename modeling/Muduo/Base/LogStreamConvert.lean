import Muduo.Base.LogStreamRuns
import Muduo.Lib.Numeral

/-!
The conversions with the arithmetic of the type that is converted. The remainder and the
quotient of each turn are checked to be values of the type, and the remainder, cast to int, to
be one of int. Both are nearer to zero than the number, so no check fails, and the loops are
those on unbounded integers.
-/
namespace Muduo
open Lib Lib.Signed
namespace LogStream

def InType (signed : Bool) (w : Nat) (x : Int) : Prop :=
  if signed then Fits w x else 0 ≤ x ∧ x < 2 ^ w

instance (signed : Bool) (w : Nat) (x : Int) : Decidable (InType signed w x) :=
  inferInstanceAs (Decidable (if signed then Fits w x else 0 ≤ x ∧ x < 2 ^ w))

namespace Typed

def valueOf (signed : Bool) (w : Nat) (x : Int) : Checked Int := do
  assertThat (InType signed w x) "overflow"
  pure x

def digitTurn (signed : Bool) (w : Nat) (base : Int) (digit : Int → Checked Char)
    (s : Cursor × Int) : Checked ((Cursor × Int) × Bool) := do
  let rest ← valueOf signed w (s.2.tmod base)
  let lsd ← valueOf true int rest
  let i ← valueOf signed w (s.2.tdiv base)
  let p ← s.1.put (← digit lsd)
  pure ((p, i), decide (i ≠ 0))

def digitLoop (signed : Bool) (w : Nat) (base : Int) (digit : Int → Checked Char) (p : Cursor)
    (value : Int) : Checked Cursor := do
  match ← whileLoop (digitTurn signed w base digit) 64 (p, value) with
  | some (p, _) => pure p
  | none => .error "more digits"

def convert {signed : Bool} {w : Nat} (data : List Char) (buf : Nat) (value : Integer signed w) :
    Checked (List Char × Nat) := do
  let p ← digitLoop signed w 10 zero ⟨data, buf⟩ value.value
  let p ← if value.value < 0 then p.put '-' else pure p
  terminate buf p

/-- A uintptr_t has 64 bits. -/
def convertHex (data : List Char) (buf : Nat) (value : Fin (2 ^ 64)) :
    Checked (List Char × Nat) := do
  let p ← digitLoop false 64 16 digitsHex ⟨data, buf⟩ value
  terminate buf p

end Typed

/-! ### No overflow -/

section
variable {signed : Bool} {w : Nat} {x y : Int}

def Nearer (x y : Int) : Prop := 0 ≤ y ∧ y ≤ x ∨ x ≤ y ∧ y ≤ 0

theorem InType.nearer (inType : InType signed w x) (near : Nearer x y) : InType signed w y := by
  unfold InType Nearer at *
  have pow : (0 : Int) < 2 ^ w := Int.pow_pos (by decide)
  cases signed with
  | false =>
    simp only [Bool.false_eq_true, if_false] at inType ⊢
    omega
  | true =>
    simp only [if_true, Fits] at inType ⊢
    omega

theorem nearer_neg (near : Nearer x y) : Nearer (-x) (-y) := by
  unfold Nearer at *
  omega

theorem nearer_tdiv (x : Int) (base : Nat) : Nearer x (x.tdiv base) := by
  have nonneg : ∀ x : Int, 0 ≤ x → Nearer x (x.tdiv base) := by
    intro x pos
    apply Or.inl
    exact ⟨Int.tdiv_nonneg pos (Int.natCast_nonneg base), Int.tdiv_le_self base pos⟩
  rcases Int.le_total 0 x with pos | neg
  · exact nonneg x pos
  · have mirrored := nearer_neg (nonneg (-x) (by omega))
    simpa only [Int.neg_tdiv, Int.neg_neg] using mirrored

theorem nearer_tmod (x : Int) (base : Nat) : Nearer x (x.tmod base) := by
  have nonneg : ∀ x : Int, 0 ≤ x → Nearer x (x.tmod base) := by
    intro x pos
    have whole := Int.mul_tdiv_add_tmod x base
    have quotient : 0 ≤ (base : Int) * x.tdiv base :=
      Int.mul_nonneg (Int.natCast_nonneg base) (Int.tdiv_nonneg pos (Int.natCast_nonneg base))
    apply Or.inl
    exact ⟨Int.tmod_nonneg base pos, by omega⟩
  rcases Int.le_total 0 x with pos | neg
  · exact nonneg x pos
  · have mirrored := nearer_neg (nonneg (-x) (by omega))
    simpa only [Int.neg_tmod, Int.neg_neg] using mirrored

namespace Typed

theorem valueOf_eq (inType : InType signed w x) : valueOf signed w x = .ok x := by
  simp only [valueOf, assertThat_of_true inType, ok_bind, pure_eq_ok]

theorem fits_remainder {base : Nat} (pos : 0 < base) (small : base ≤ 16) (x : Int) :
    InType true int (x.tmod base) := by
  have below := Int.tmod_lt_of_pos x (Int.natCast_pos.mpr pos)
  have above := Int.lt_tmod_of_pos x (Int.natCast_pos.mpr pos)
  apply fits_int.mpr
  omega

theorem digitTurn_eq {base : Nat} (pos : 0 < base) (small : base ≤ 16)
    (digit : Int → Checked Char) {s : Cursor × Int} (inType : InType signed w s.2) :
    digitTurn signed w base digit s = LogStream.digitTurn base digit s := by
  simp only [digitTurn, LogStream.digitTurn, ok_bind,
    valueOf_eq (inType.nearer (nearer_tmod s.2 base)), valueOf_eq (fits_remainder pos small s.2),
    valueOf_eq (inType.nearer (nearer_tdiv s.2 base))]

theorem digitLoop_eq {base : Nat} (pos : 0 < base) (small : base ≤ 16)
    (digit : Int → Checked Char) (p : Cursor) (inType : InType signed w x) :
    digitLoop signed w base digit p x = LogStream.digitLoop base digit p x := by
  have same : whileLoop (digitTurn signed w base digit) 64 (p, x) =
      whileLoop (LogStream.digitTurn base digit) 64 (p, x) := by
    apply whileLoop_congr (fun s => InType signed w s.2) _ _ inType
    · intro s inType
      exact digitTurn_eq pos small digit inType
    · intro s t inType turn
      unfold LogStream.digitTurn at turn
      obtain ⟨c, -, rest⟩ := bind_eq_ok.mp turn
      obtain ⟨q, -, result⟩ := bind_eq_ok.mp rest
      simp only [pure_eq_ok, Except.ok.injEq, Prod.mk.injEq] at result
      simp only [← result.1]
      exact inType.nearer (nearer_tdiv s.2 base)
  simp only [digitLoop, same]
  rfl

theorem convert_eq (data : List Char) (buf : Nat) (v : Integer signed w) :
    convert data buf v = LogStream.convert data buf v.value := by
  have loop := digitLoop_eq (by decide : 0 < 10) (by decide) zero ⟨data, buf⟩ v.fits
  simp only [convert, LogStream.convert]
  exact congrArg (· >>= _) loop

theorem convertHex_eq (data : List Char) (buf : Nat) (v : Fin (2 ^ 64)) :
    convertHex data buf v = LogStream.convertHex data buf v := by
  have inType : InType false 64 (v : Nat) := by
    have bound := v.isLt
    constructor
    · exact Int.natCast_nonneg v
    · exact_mod_cast bound
  have loop := digitLoop_eq (by decide : 0 < 16) (by decide) digitsHex ⟨data, buf⟩ inType
  simp only [convertHex, LogStream.convertHex]
  exact congrArg (· >>= _) loop

end Typed
end

/-! ### The texts -/

/-- The canonical text of an integer: a minus exactly in front of a negative one. -/
def CanonicalInteger (x : Int) (text : List Char) : Prop :=
  if x < 0 then ∃ rest, text = '-' :: rest ∧ Canonical "0123456789".toList x.natAbs rest
  else Canonical "0123456789".toList x.natAbs text

theorem canonical_decimal (n : Nat) : Canonical "0123456789".toList n (decimal n) := by
  have canonical : Canonical "0123456789".toList n ((Nat.toDigits 10 n).map id) :=
    canonical_toDigits (by decide) (by decide) (by decide) n
  simpa only [decimal, List.map_id] using canonical

theorem canonical_hexadecimal (n : Nat) :
    Canonical hexDigits n ((hexadecimal n).map Char.toUpper) :=
  canonical_toDigits (by decide : 1 < 16) (by decide) (by decide) n

theorem canonical_integerText (x : Int) : CanonicalInteger x (integerText x) := by
  unfold CanonicalInteger integerText
  split
  · exact ⟨_, rfl, canonical_decimal _⟩
  · exact canonical_decimal _

theorem length_integerText_le {signed : Bool} {w : Nat} (v : Integer signed w) (width : w ≤ 64) :
    (integerText v.value).length ≤ 20 := by
  have fits := v.fits
  have pow : (2 : Int) ^ w ≤ 2 ^ 64 := pow_le_pow_right₀ (by decide) width
  unfold integerText
  split
  · next negative =>
    have signed_ : v.value.natAbs < 10 ^ 19 := by
      cases signed with
      | false =>
        simp only [Bool.false_eq_true, if_false] at fits
        omega
      | true =>
        simp only [if_true, Fits] at fits
        omega
    have digits := length_decimal_le (by decide) signed_
    simp only [List.length_cons]
    omega
  · exact length_decimal_le (by decide) (Nat.lt_of_lt_of_le (v.natAbs_lt width) (by decide))

/-- The conversions of a value of any integer type, wherever its text and a NUL have room. -/
theorem conversions_exact (data : List Char) (buf : Nat) :
    (∀ (signed : Bool) (w : Nat) (v : Integer signed w), w ≤ 64 →
      buf + (integerText v.value).length < data.length →
      ∃ data' text, Typed.convert data buf v = .ok (data', text.length) ∧
        Terminated data buf text data' ∧ CanonicalInteger v.value text ∧ text.length ≤ 20) ∧
    (∀ v : Fin (2 ^ 64), buf + (hexadecimal v).length < data.length →
      ∃ data' text, Typed.convertHex data buf v = .ok (data', text.length) ∧
        Terminated data buf text data' ∧ Canonical hexDigits v text ∧ text.length ≤ 16) := by
  constructor
  · intro signed w v width room
    obtain ⟨data', converted, ended⟩ := convert_spec data buf (v.natAbs_lt width) room
    refine ⟨data', integerText v.value, ?_, ended, canonical_integerText _,
      length_integerText_le v width⟩
    exact (Typed.convert_eq data buf v).trans converted
  · intro v room
    have room' : buf + ((hexadecimal v).map Char.toUpper).length < data.length := by
      simpa only [List.length_map] using room
    obtain ⟨data', converted, ended⟩ := convertHex_spec data buf v.isLt room'
    have short : ((hexadecimal v).map Char.toUpper).length ≤ 16 := by
      simp only [List.length_map]
      exact length_hexadecimal_le (by decide) (Nat.lt_of_lt_of_le v.isLt (by decide))
    refine ⟨data', _, ?_, ended, canonical_hexadecimal v, short⟩
    exact (Typed.convertHex_eq data buf v).trans converted

def leastLong : Integer true 64 := ⟨-9223372036854775808, by decide⟩

theorem conversions_exact_of_leastLong :
    ∃ data' text, Typed.convert (List.replicate 32 'z') 3 leastLong = .ok (data', text.length) ∧
      Terminated (List.replicate 32 'z') 3 text data' ∧
      CanonicalInteger (-9223372036854775808) text ∧ text.length ≤ 20 :=
  (conversions_exact (List.replicate 32 'z') 3).1 true 64 leastLong (Nat.le_refl _)
    (by decide +kernel)

end LogStream
end Muduo
