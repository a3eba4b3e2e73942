import Mathlib.Data.Nat.Digits.Defs

/-!
Numbers rendered as text, as by the conversions d, u and x of the C library, and
text cut to a buffer of fixed size.
-/
namespace Lib

def decimal (n : Nat) : List Char := Nat.toDigits 10 n

def hexadecimal (n : Nat) : List Char := Nat.toDigits 16 n

/-- What a buffer of `size` characters holds after snprintf: one is kept for the
    terminating zero. -/
def snprintf (size : Nat) (text : List Char) : List Char := text.take (size - 1)

def zeroPadded (width n : Nat) : List Char :=
  List.replicate (width - (decimal n).length) '0' ++ decimal n

theorem decimal_injective {n k : Nat} (same : decimal n = decimal k) : n = k := by
  unfold decimal at same
  have back := congrArg (fun ds => Nat.ofDigitChars 10 ds 0) same
  simpa only [Nat.ofDigitChars_ten_toDigits] using back

theorem length_decimal_le {n digits : Nat} (some : 0 < digits) (bound : n < 10 ^ digits) :
    (decimal n).length ≤ digits :=
  Nat.toDigits_length 10 n digits some bound

theorem lt_length_decimal {n digits : Nat} (some : 0 < digits) (bound : 10 ^ digits ≤ n) :
    digits < (decimal n).length := by
  by_contra short
  have less := (Nat.length_toDigits_le_iff (by decide) some).mp (Nat.le_of_not_lt short)
  omega

theorem length_zeroPadded {width n : Nat} (some : 0 < width) (bound : n < 10 ^ width) :
    (zeroPadded width n).length = width := by
  have short := length_decimal_le some bound
  simp only [zeroPadded, List.length_append, List.length_replicate]
  omega

theorem length_hexadecimal_le {n digits : Nat} (some : 0 < digits) (bound : n < 16 ^ digits) :
    (hexadecimal n).length ≤ digits :=
  Nat.toDigits_length 16 n digits some bound

theorem snprintf_fits {size : Nat} {text : List Char} (fits : text.length < size) :
    snprintf size text = text := by
  unfold snprintf
  exact List.take_of_length_le (by omega)

end Lib
