import Muduo.Lib.Loop
import Muduo.Lib.Signed
import Muduo.Lib.Text
import Muduo.Lib.Window

/-!
LogStream.h and LogStream.cc: operator<< and append of a LogStream. A char is a character, and
data_ is an array whose cells hold whatever was there before. Every store is checked to be
inside of it. Strings are copied; numbers are converted in place, the digits of an integer
backwards and behind them a NUL that the next piece overwrites.

What an argument points to is part of it: a StringPiece can be read as far as it is long,
and a C string ends. snprintf renders a double, and the value of a Fmt, in at most 31
characters.
-/
namespace Muduo
open Lib Lib.Signed
namespace LogStream

def kSmallBuffer : Nat := 4000

def kMaxNumericSize : Int := 48

def nul : Char := Char.ofNat 0

/-- FixedBuffer<kSmallBuffer>. -/
structure Buffer where
  data_ : List Char
  cur_ : Nat
  deriving DecidableEq, Repr

namespace Buffer

def length (b : Buffer) : Int := toSigned int b.cur_

def avail (b : Buffer) : Int := toSigned int (b.data_.length - b.cur_)

/-- The length is a size_t. -/
def append (b : Buffer) (buf : List Char) (len : Nat) : Checked Buffer :=
  if len < toUnsigned 64 b.avail then do
    assertThat (len ≤ buf.length) "memcpy reads buf"
    assertThat (b.cur_ + len ≤ b.data_.length) "memcpy writes data_"
    pure ⟨storeAt b.data_ b.cur_ (buf.take len), b.cur_ + len⟩
  else pure b

def add (b : Buffer) (len : Nat) : Buffer := { b with cur_ := b.cur_ + len }

end Buffer

/-! ### Conversion in place -/

structure Cursor where
  data : List Char
  p : Nat

def Cursor.put (s : Cursor) (c : Char) : Checked Cursor := do
  assertThat (s.p < s.data.length) "*p is in data_"
  pure ⟨s.data.set s.p c, s.p + 1⟩

def digits : List Char := "9876543210123456789".toList

def zero (lsd : Int) : Checked Char := do
  assertThat (0 ≤ 9 + lsd ∧ 9 + lsd < digits.length) "zero[lsd]"
  pure (digits.getD (9 + lsd).toNat nul)

def hexDigits : List Char := "0123456789ABCDEF".toList

def digitsHex (lsd : Int) : Checked Char := do
  assertThat (0 ≤ lsd ∧ lsd < hexDigits.length) "digitsHex[lsd]"
  pure (hexDigits.getD lsd.toNat nul)

def digitTurn (base : Int) (digit : Int → Checked Char) (s : Cursor × Int) :
    Checked ((Cursor × Int) × Bool) := do
  let lsd := s.2.tmod base
  let i := s.2.tdiv base
  let p ← s.1.put (← digit lsd)
  pure ((p, i), decide (i ≠ 0))

/-- No integer has more than 64 digits. -/
def digitLoop (base : Int) (digit : Int → Checked Char) (p : Cursor) (value : Int) :
    Checked Cursor := do
  match ← whileLoop (digitTurn base digit) 64 (p, value) with
  | some (p, _) => pure p
  | none => .error "more digits"

def reverse (data : List Char) (first last : Nat) : List Char :=
  storeAt data first (window data first last).reverse

def terminate (buf : Nat) (p : Cursor) : Checked (List Char × Nat) := do
  let ended ← p.put nul
  pure (reverse ended.data buf p.p, p.p - buf)

def convert (data : List Char) (buf : Nat) (value : Int) : Checked (List Char × Nat) := do
  let p ← digitLoop 10 zero ⟨data, buf⟩ value
  let p ← if value < 0 then p.put '-' else pure p
  terminate buf p

def convertHex (data : List Char) (buf : Nat) (value : Nat) : Checked (List Char × Nat) := do
  let p ← digitLoop 16 digitsHex ⟨data, buf⟩ value
  terminate buf p

/-! ### The arguments -/

structure Integer (signed : Bool) (w : Nat) where
  value : Int
  fits : if signed then Fits w value else 0 ≤ value ∧ value < 2 ^ w

def Integer.promote {signed : Bool} (v : Integer signed 16) : Integer signed 32 where
  value := v.value
  fits := by
    have fits := v.fits
    cases signed with
    | false =>
      simp only [Bool.false_eq_true, if_false] at fits ⊢
      omega
    | true =>
      simp only [if_true, Fits] at fits ⊢
      omega

structure StringPiece where
  ptr_ : List Char
  length_ : Int
  fits : Fits int length_
  readable : length_ ≤ ptr_.length

structure CString where
  chars : List Char
  ended : nul ∈ chars

def strlen (str : CString) : Nat := (str.chars.takeWhile (· ≠ nul)).length

structure Rendered where
  text : List Char
  short : text.length ≤ 31

/-- A Buffer as a piece, which may be the buffer of the stream itself. -/
structure Nested where
  buffer : Buffer
  size : buffer.data_.length = kSmallBuffer
  inside : buffer.cur_ ≤ kSmallBuffer

theorem Buffer.length_eq {b : Buffer} (inside : b.cur_ ≤ kSmallBuffer) : b.length = b.cur_ := by
  unfold kSmallBuffer at inside
  exact toSigned_of_fits (fits_int.mpr (by omega))

def Nested.toStringPiece (v : Nested) : StringPiece where
  ptr_ := v.buffer.data_
  length_ := v.buffer.length
  fits := by
    have inside := v.inside
    unfold kSmallBuffer at inside
    rw [Buffer.length_eq v.inside, fits_int]
    omega
  readable := by
    rw [Buffer.length_eq v.inside, v.size]
    exact_mod_cast v.inside

/-! ### operator<< -/

namespace Buffer

def shlBool (b : Buffer) (v : Bool) : Checked Buffer := b.append (if v then ['1'] else ['0']) 1

def shlChar (b : Buffer) (v : Char) : Checked Buffer := b.append [v] 1

def shlCString (b : Buffer) : Option CString → Checked Buffer
  | some str => b.append str.chars (strlen str)
  | none => b.append "(null)".toList 6

def shlString (b : Buffer) (v : List Char) : Checked Buffer := b.append v v.length

def shlStringPiece (b : Buffer) (v : StringPiece) : Checked Buffer :=
  b.append v.ptr_ (toUnsigned 64 v.length_)

def shlBuffer (b : Buffer) (v : Nested) : Checked Buffer := b.shlStringPiece v.toStringPiece

def appendPiece (b : Buffer) (v : StringPiece) : Checked Buffer :=
  b.append v.ptr_ (toUnsigned 64 v.length_)

def shlFmt (b : Buffer) (fmt : Rendered) : Checked Buffer := b.append fmt.text fmt.text.length

def formatInteger {signed : Bool} {w : Nat} (b : Buffer) (v : Integer signed w) :
    Checked Buffer :=
  if kMaxNumericSize ≤ b.avail then do
    let (data, len) ← convert b.data_ b.cur_ v.value
    pure (add ⟨data, b.cur_⟩ len)
  else pure b

def shlInt (b : Buffer) (v : Integer true 32) : Checked Buffer := b.formatInteger v

def shlUnsignedInt (b : Buffer) (v : Integer false 32) : Checked Buffer := b.formatInteger v

def shlShort (b : Buffer) (v : Integer true 16) : Checked Buffer := b.shlInt v.promote

def shlUnsignedShort (b : Buffer) (v : Integer false 16) : Checked Buffer :=
  b.shlUnsignedInt v.promote

def shlLong (b : Buffer) (v : Integer true 64) : Checked Buffer := b.formatInteger v

def shlUnsignedLong (b : Buffer) (v : Integer false 64) : Checked Buffer := b.formatInteger v

def shlLongLong (b : Buffer) (v : Integer true 64) : Checked Buffer := b.formatInteger v

def shlUnsignedLongLong (b : Buffer) (v : Integer false 64) : Checked Buffer := b.formatInteger v

def shlPointer (b : Buffer) (v : Fin (2 ^ 64)) : Checked Buffer :=
  if kMaxNumericSize ≤ b.avail then do
    let p ← Cursor.put ⟨b.data_, b.cur_⟩ '0'
    let p ← p.put 'x'
    let (data, len) ← convertHex p.data p.p v
    pure (add ⟨data, b.cur_⟩ (len + 2))
  else pure b

def shlDouble (b : Buffer) (v : Rendered) : Checked Buffer :=
  if kMaxNumericSize ≤ b.avail then do
    let written := snprintf kMaxNumericSize.toNat v.text ++ [nul]
    assertThat (b.cur_ + written.length ≤ b.data_.length) "snprintf writes data_"
    pure (add ⟨storeAt b.data_ b.cur_ written, b.cur_⟩ v.text.length)
  else pure b

def shlFloat (b : Buffer) (v : Rendered) : Checked Buffer := b.shlDouble v

end Buffer

inductive Piece where
  | bool (v : Bool)
  | char (v : Char)
  | cString (str : Option CString)
  | string (v : List Char)
  | stringPiece (v : StringPiece)
  | buffer (v : Nested)
  | append (v : StringPiece)
  | fmt (v : Rendered)
  | short (v : Integer true 16)
  | unsignedShort (v : Integer false 16)
  | int (v : Integer true 32)
  | unsignedInt (v : Integer false 32)
  | long (v : Integer true 64)
  | unsignedLong (v : Integer false 64)
  | longLong (v : Integer true 64)
  | unsignedLongLong (v : Integer false 64)
  | pointer (v : Fin (2 ^ 64))
  | float (v : Rendered)
  | double (v : Rendered)

def Buffer.shl (b : Buffer) : Piece → Checked Buffer
  | .bool v => b.shlBool v
  | .char v => b.shlChar v
  | .cString str => b.shlCString str
  | .string v => b.shlString v
  | .stringPiece v => b.shlStringPiece v
  | .buffer v => b.shlBuffer v
  | .append v => b.appendPiece v
  | .fmt v => b.shlFmt v
  | .short v => b.shlShort v
  | .unsignedShort v => b.shlUnsignedShort v
  | .int v => b.shlInt v
  | .unsignedInt v => b.shlUnsignedInt v
  | .long v => b.shlLong v
  | .unsignedLong v => b.shlUnsignedLong v
  | .longLong v => b.shlLongLong v
  | .unsignedLongLong v => b.shlUnsignedLongLong v
  | .pointer v => b.shlPointer v
  | .float v => b.shlFloat v
  | .double v => b.shlDouble v

def Buffer.shlAll (b : Buffer) (pieces : List Piece) : Checked Buffer := pieces.foldlM Buffer.shl b

end LogStream
end Muduo
