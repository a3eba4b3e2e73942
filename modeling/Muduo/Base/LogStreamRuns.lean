import Mathlib.Tactic.IntervalCases
import Muduo.Base.LogStream

/-!
A LogStream writes whole pieces. A piece is appended to what the buffer holds, with all of
its text, or it is left out; which of the two depends on avail() alone. A conversion in
place needs room for its text and a NUL, which is less than the room that is asked for.
-/
namespace Muduo
open Lib Lib.Signed
namespace LogStream

/-! ### Conversion in place -/

def Cursor.view (s : Cursor) : List Char := window s.data 0 s.p

structure Wrote (s t : Cursor) (text : List Char) : Prop where
  view : t.view = s.view ++ text
  p : t.p = s.p + text.length
  size : t.data.length = s.data.length

section
variable {s t u : Cursor} {text more : List Char}

theorem Wrote.trans (first : Wrote s t text) (second : Wrote t u more) :
    Wrote s u (text ++ more) where
  view := by rw [second.view, first.view, List.append_assoc]
  p := by rw [second.p, first.p, List.length_append, Nat.add_assoc]
  size := second.size.trans first.size

theorem put_spec (room : s.p < s.data.length) (c : Char) :
    ∃ t, s.put c = .ok t ∧ Wrote s t [c] := by
  refine ⟨⟨s.data.set s.p c, s.p + 1⟩, ?_, ?_, rfl, List.length_set⟩
  · rw [Cursor.put, assertThat_of_true room, ok_bind, pure_eq_ok]
  · have stored : window (storeAt s.data s.p [c]) 0 (s.p + 1) = window s.data 0 s.p ++ [c] :=
      window_storeAt_back (Nat.zero_le _) room
    exact stored

end

structure Glyphs (base : Nat) (digit : Int → Checked Char) (glyph : Char → Char) (negative : Prop) :
    Prop where
  more : 1 < base
  read : ∀ lsd : Int, (negative ∨ 0 ≤ lsd) → lsd.natAbs < base →
    digit lsd = .ok (glyph lsd.natAbs.digitChar)

theorem zero_glyphs : Glyphs 10 zero id True := by
  refine ⟨by decide, ?_⟩
  intro lsd _ small
  have lower : -9 ≤ lsd := by omega
  have upper : lsd ≤ 9 := by omega
  interval_cases lsd <;> decide +kernel

theorem digitsHex_glyphs : Glyphs 16 digitsHex Char.toUpper False := by
  refine ⟨by decide, ?_⟩
  intro lsd sign small
  have lower : 0 ≤ lsd := sign.resolve_left id
  have upper : lsd ≤ 15 := by omega
  interval_cases lsd <;> decide +kernel

section
variable {base : Nat} {digit : Int → Checked Char} {glyph : Char → Char} {negative : Prop}
  {s : Cursor} {value : Int}

def numeral (base : Nat) (glyph : Char → Char) (n : Nat) : List Char :=
  (Nat.toDigits base n).map glyph

theorem numeral_of_lt {n : Nat} (lt : n < base) : numeral base glyph n = [glyph n.digitChar] := by
  rw [numeral, Nat.toDigits_of_lt_base lt, List.map_singleton]

theorem numeral_of_le {n : Nat} (more : 1 < base) (le : base ≤ n) : numeral base glyph n =
    numeral base glyph (n / base) ++ [glyph (n % base).digitChar] := by
  rw [numeral, Nat.toDigits_of_base_le more le, List.map_append, List.map_singleton, numeral]

theorem digitTurn_spec (glyphs : Glyphs base digit glyph negative) (sign : negative ∨ 0 ≤ value)
    (room : s.p < s.data.length) :
    ∃ t, digitTurn base digit (s, value) =
        .ok ((t, value.tdiv base), decide (value.tdiv base ≠ 0)) ∧
      Wrote s t [glyph (value.natAbs % base).digitChar] := by
  have lsd : (value.tmod base).natAbs = value.natAbs % base := by
    rw [Int.natAbs_tmod, Int.natAbs_natCast]
  have small : (value.tmod base).natAbs < base := by
    rw [lsd]
    exact Nat.mod_lt _ (Nat.lt_of_succ_lt glyphs.more)
  have read := glyphs.read (value.tmod base)
    (sign.imp id fun nonneg => Int.tmod_nonneg _ nonneg) small
  obtain ⟨t, stored, wrote⟩ := put_spec room (glyph (value.natAbs % base).digitChar)
  refine ⟨t, ?_, wrote⟩
  rw [lsd] at read
  simp only [digitTurn, read, ok_bind, stored, pure_eq_ok]

theorem natAbs_quotient (value : Int) (base : Nat) :
    (value.tdiv base).natAbs = value.natAbs / base := by
  rw [Int.natAbs_tdiv, Int.natAbs_natCast]
  rfl

theorem whileLoop_last (glyphs : Glyphs base digit glyph negative) {fuel : Nat}
    (sign : negative ∨ 0 ≤ value) (last : value.natAbs < base)
    (room : s.p + (numeral base glyph value.natAbs).length ≤ s.data.length) :
    ∃ t, whileLoop (digitTurn base digit) (fuel + 1) (s, value) = .ok (some (t, 0)) ∧
      Wrote s t (numeral base glyph value.natAbs).reverse := by
  rw [numeral_of_lt last] at room ⊢
  obtain ⟨t, turn, wrote⟩ := digitTurn_spec glyphs sign (s := s) room
  have ended : value.tdiv base = 0 := by
    have quotient := natAbs_quotient value base
    rw [Nat.div_eq_of_lt last] at quotient
    omega
  rw [ended] at turn
  rw [Nat.mod_eq_of_lt last] at wrote
  exact ⟨t, whileLoop_stop (Nat.succ_pos _) turn, wrote⟩

theorem whileLoop_digits (glyphs : Glyphs base digit glyph negative) {fuel : Nat}
    (sign : negative ∨ 0 ≤ value) (enough : value.natAbs < base ^ (fuel + 1))
    (room : s.p + (numeral base glyph value.natAbs).length ≤ s.data.length) :
    ∃ t, whileLoop (digitTurn base digit) (fuel + 1) (s, value) = .ok (some (t, 0)) ∧
      Wrote s t (numeral base glyph value.natAbs).reverse := by
  induction fuel generalizing s value with
  | zero =>
    rw [Nat.zero_add, Nat.pow_one] at enough
    exact whileLoop_last glyphs sign enough room
  | succ fuel ih =>
    have quotient := natAbs_quotient value base
    rcases Nat.lt_or_ge value.natAbs base with last | more
    · exact whileLoop_last glyphs sign last room
    · rw [numeral_of_le glyphs.more more, List.length_append, List.length_singleton] at room
      obtain ⟨t, turn, wrote⟩ := digitTurn_spec glyphs sign (s := s) (by omega)
      have again : value.tdiv base ≠ 0 := by
        have pos : 0 < value.natAbs / base := Nat.div_pos more (Nat.lt_of_succ_lt glyphs.more)
        omega
      have sign' : negative ∨ 0 ≤ value.tdiv base :=
        sign.imp id fun nonneg => Int.tdiv_nonneg nonneg (Int.natCast_nonneg _)
      have enough' : (value.tdiv base).natAbs < base ^ (fuel + 1) := by
        rw [Nat.pow_succ'] at enough
        rw [quotient]
        exact Nat.div_lt_of_lt_mul enough
      have room' : t.p + (numeral base glyph (value.tdiv base).natAbs).length ≤ t.data.length := by
        rw [quotient, wrote.p, wrote.size, List.length_singleton]
        omega
      obtain ⟨u, ran, rest⟩ := ih sign' enough' room'
      refine ⟨u, ?_, ?_⟩
      · rw [whileLoop_again (Nat.succ_pos _) (by rw [turn, decide_eq_true again])]
        exact ran
      · rw [numeral_of_le glyphs.more more, List.reverse_append, ← quotient]
        exact wrote.trans rest

theorem digitLoop_spec (glyphs : Glyphs base digit glyph negative) (sign : negative ∨ 0 ≤ value)
    (bound : value.natAbs < 2 ^ 64)
    (room : s.p + (numeral base glyph value.natAbs).length ≤ s.data.length) :
    ∃ t, digitLoop base digit s value = .ok t ∧
      Wrote s t (numeral base glyph value.natAbs).reverse := by
  have enough : value.natAbs < base ^ (63 + 1) :=
    Nat.lt_of_lt_of_le bound (Nat.pow_le_pow_left glyphs.more 64)
  obtain ⟨t, ran, wrote⟩ := whileLoop_digits glyphs sign enough room
  refine ⟨t, ?_, wrote⟩
  rw [digitLoop, ran, ok_bind]
  rfl

end

structure Placed (data : List Char) (buf : Nat) (text data' : List Char) : Prop where
  view : window data' 0 (buf + text.length) = window data 0 buf ++ text
  size : data'.length = data.length

theorem Wrote.placed {data data' : List Char} {buf : Nat} {t : Cursor} {front text : List Char}
    (wrote : Wrote ⟨data, buf⟩ t front) (placed : Placed t.data t.p text data') :
    Placed data buf (front ++ text) data' where
  view := by
    have view := placed.view
    rw [wrote.p, Nat.add_assoc, ← List.length_append, ← wrote.p] at view
    rw [view, ← List.append_assoc]
    exact congrArg (· ++ text) wrote.view
  size := placed.size.trans wrote.size

structure Terminated (data : List Char) (buf : Nat) (text data' : List Char) : Prop
    extends Placed data buf text data' where
  ended : data'[buf + text.length]? = some nul

theorem terminate_spec {s t : Cursor} {text : List Char} (wrote : Wrote s t text.reverse)
    (room : s.p + text.length < s.data.length) :
    ∃ data, terminate s.p t = .ok (data, text.length) ∧ Terminated s.data s.p text data := by
  have place := wrote.p
  have size := wrote.size
  rw [List.length_reverse] at place
  obtain ⟨u, stored, ended⟩ := put_spec (s := t) (by omega) nul
  have whole : window u.data 0 u.p = (s.view ++ text.reverse) ++ [nul] := by
    have view := ended.view
    rwa [wrote.view] at view
  have bound : u.p ≤ u.data.length := by
    rw [ended.p, ended.size, List.length_singleton]
    omega
  have front : s.view.length = s.p := by
    rw [Cursor.view, length_window (by omega), Nat.sub_zero]
  obtain ⟨before, last⟩ := window_of_append whole bound
  obtain ⟨old, new⟩ := window_of_append before (by
    rw [List.length_append, front, List.length_reverse, ended.size]
    omega)
  rw [front, List.length_reverse] at new
  rw [front] at old
  refine ⟨reverse u.data s.p t.p, ?_, ⟨?_, ?_⟩, ?_⟩
  · rw [terminate, stored, ok_bind, pure_eq_ok, place, Nat.add_sub_cancel_left]
  · rw [reverse, place, new, List.reverse_reverse, window_storeAt_back (Nat.zero_le _) (by
      rw [ended.size]
      omega), old]
    rfl
  · rw [reverse, length_storeAt, ended.size, size]
  · -- the NUL is behind the characters that are reversed
    have read := congrArg (·[0]?) last
    simp only [List.length_append, front, List.length_reverse, List.length_singleton,
      getElem?_window, Nat.add_zero, Nat.lt_add_one, if_true, List.getElem?_cons_zero] at read
    have length : (window u.data s.p t.p).reverse.length = text.length := by
      rw [place, new, List.length_reverse, List.length_reverse]
    rw [reverse, getElem?_storeAt _ _ _ (by rw [length, ended.size]; omega), length,
      if_neg (by omega)]
    exact read

def integerText (value : Int) : List Char :=
  if value < 0 then '-' :: decimal value.natAbs else decimal value.natAbs

def pointerText (value : Nat) : List Char := '0' :: 'x' :: (hexadecimal value).map Char.toUpper

theorem numeral_decimal (n : Nat) : numeral 10 id n = decimal n := List.map_id _

section
variable (data : List Char) (buf : Nat)

theorem convert_spec {value : Int} (bound : value.natAbs < 2 ^ 64)
    (room : buf + (integerText value).length < data.length) :
    ∃ data', convert data buf value = .ok (data', (integerText value).length) ∧
      Terminated data buf (integerText value) data' := by
  unfold integerText at room ⊢
  have loop : buf + (decimal value.natAbs).length ≤ data.length →
      ∃ t, digitLoop 10 zero ⟨data, buf⟩ value = .ok t ∧
        Wrote ⟨data, buf⟩ t (decimal value.natAbs).reverse := by
    intro room
    rw [← numeral_decimal] at room ⊢
    exact digitLoop_spec zero_glyphs (Or.inl trivial) bound room
  by_cases negative : value < 0
  · rw [if_pos negative] at room ⊢
    rw [List.length_cons] at room
    obtain ⟨t, ran, wrote⟩ := loop (by omega)
    have place : t.p = buf + (decimal value.natAbs).length := by
      rw [wrote.p, List.length_reverse]
    have size : t.data.length = data.length := wrote.size
    obtain ⟨u, minus, signed⟩ := put_spec (s := t) (by omega) '-'
    have both := wrote.trans signed
    rw [← List.reverse_cons] at both
    obtain ⟨data', ended, placed⟩ := terminate_spec both (by
      rw [List.length_cons]
      exact room)
    refine ⟨data', ?_, placed⟩
    rw [convert, ran, ok_bind, if_pos negative, minus, ok_bind]
    exact ended
  · rw [if_neg negative] at room ⊢
    obtain ⟨t, ran, wrote⟩ := loop (Nat.le_of_lt room)
    obtain ⟨data', ended, placed⟩ := terminate_spec wrote room
    refine ⟨data', ?_, placed⟩
    rw [convert, ran, ok_bind, if_neg negative, pure_eq_ok, ok_bind]
    exact ended

theorem convertHex_spec {value : Nat} (bound : value < 2 ^ 64)
    (room : buf + ((hexadecimal value).map Char.toUpper).length < data.length) :
    ∃ data', convertHex data buf value =
        .ok (data', ((hexadecimal value).map Char.toUpper).length) ∧
      Terminated data buf ((hexadecimal value).map Char.toUpper) data' := by
  have loop : ∃ t, digitLoop 16 digitsHex ⟨data, buf⟩ value = .ok t ∧
      Wrote ⟨data, buf⟩ t ((hexadecimal value).map Char.toUpper).reverse :=
    digitLoop_spec digitsHex_glyphs (Or.inr (Int.natCast_nonneg value)) bound (Nat.le_of_lt room)
  obtain ⟨t, ran, wrote⟩ := loop
  obtain ⟨data', ended, placed⟩ := terminate_spec wrote room
  refine ⟨data', ?_, placed⟩
  rw [convertHex, ran, ok_bind]
  exact ended

theorem length_integerText {value : Int} (bound : value.natAbs < 2 ^ 64) :
    (integerText value).length ≤ 21 := by
  have digits : (decimal value.natAbs).length ≤ 20 :=
    length_decimal_le (by decide) (Nat.lt_of_lt_of_le bound (by decide))
  unfold integerText
  split
  · rw [List.length_cons]
    omega
  · omega

theorem length_pointerText {value : Nat} (bound : value < 2 ^ 64) :
    (pointerText value).length ≤ 18 := by
  have digits : (hexadecimal value).length ≤ 16 :=
    length_hexadecimal_le (by decide) (Nat.lt_of_lt_of_le bound (by decide))
  simp only [pointerText, List.length_cons, List.length_map]
  omega

end

/-! ### One piece -/

theorem Integer.natAbs_lt {signed : Bool} {w : Nat} (v : Integer signed w) (width : w ≤ 64) :
    v.value.natAbs < 2 ^ 64 := by
  have fits := v.fits
  have pow : (2 : Int) ^ w ≤ 2 ^ 64 := pow_le_pow_right₀ (by decide) width
  cases signed with
  | false =>
    simp only [Bool.false_eq_true, if_false] at fits
    omega
  | true =>
    simp only [if_true, Fits] at fits
    omega

namespace Buffer

def content (b : Buffer) : List Char := window b.data_ 0 b.cur_

structure Sound (b : Buffer) : Prop where
  size : b.data_.length = kSmallBuffer
  room : b.cur_ < kSmallBuffer

structure Takes (b : Buffer) (condition : Prop) (text : List Char) (r : Checked Buffer) : Prop where
  kept : condition → ∃ b', r = .ok b' ∧ b'.Sound ∧ b'.content = b.content ++ text
  dropped : ¬condition → r = .ok b

variable {b : Buffer}

theorem avail_eq (inside : b.cur_ ≤ b.data_.length) (int_ : b.data_.length < 2147483648) :
    b.avail = b.data_.length - b.cur_ := by
  rw [avail]
  exact toSigned_of_fits (fits_int.mpr (by omega))

theorem append_eq {buf : List Char} {len : Nat} (inside : b.cur_ ≤ b.data_.length)
    (int_ : b.data_.length < 2147483648)
    (readable : len < b.data_.length - b.cur_ → len ≤ buf.length) :
    b.append buf len = .ok (if len < b.data_.length - b.cur_ then
      ⟨storeAt b.data_ b.cur_ (buf.take len), b.cur_ + len⟩ else b) := by
  have avail := avail_eq inside int_
  have unsigned : toUnsigned 64 b.avail = b.data_.length - b.cur_ := by
    have same := toUnsigned_of_lt (w := 64) (x := b.avail) (by omega) (by norm_num; omega)
    omega
  unfold append
  rw [unsigned]
  split
  · next fits =>
    rw [assertThat_of_true (readable fits), ok_bind, assertThat_of_true (by omega), ok_bind,
      pure_eq_ok]
  · rfl

theorem Sound.avail_eq (sound : b.Sound) : b.avail = 4000 - b.cur_ := by
  have size := sound.size
  have room := sound.room
  unfold kSmallBuffer at size room
  rw [Buffer.avail_eq (by omega) (by omega), size]
  rfl

theorem append_takes (sound : b.Sound) {buf text : List Char} {len : Nat}
    (source : len < 4000 → buf.take len = text ∧ text.length = len) :
    Takes b (len < b.avail) text (b.append buf len) := by
  have size := sound.size
  have room := sound.room
  have avail := sound.avail_eq
  unfold kSmallBuffer at size room
  have readable : len < b.data_.length - b.cur_ → len ≤ buf.length := by
    intro fits
    obtain ⟨cut, length⟩ := source (by omega)
    have taken := congrArg List.length cut
    rw [List.length_take] at taken
    omega
  rw [append_eq (by omega) (by omega) readable]
  constructor
  · intro fits
    obtain ⟨cut, length⟩ := source (by omega)
    rw [if_pos (by omega), cut]
    refine ⟨_, rfl, ⟨?_, ?_⟩, ?_⟩
    · rw [length_storeAt]
      exact sound.size
    · unfold kSmallBuffer
      dsimp only
      omega
    · have stored : window (storeAt b.data_ b.cur_ text) 0 (b.cur_ + text.length) =
          window b.data_ 0 b.cur_ ++ text := window_storeAt_back (Nat.zero_le _) (by omega)
      rw [length] at stored
      exact stored
  · intro full
    rw [if_neg (by omega)]

theorem append_whole (sound : b.Sound) (text : List Char) :
    Takes b (text.length < b.avail) text (b.append text text.length) :=
  append_takes sound fun _ => ⟨List.take_length, rfl⟩

theorem Sound.room_of_avail (sound : b.Sound) (avail : kMaxNumericSize ≤ b.avail) :
    b.cur_ + 48 ≤ b.data_.length := by
  rw [sound.avail_eq] at avail
  rw [sound.size]
  unfold kMaxNumericSize at avail
  unfold kSmallBuffer
  omega

theorem numeric_takes (sound : b.Sound) {text : List Char} (short : text.length ≤ 31)
    {r : Checked Buffer} (converts : b.cur_ + 48 ≤ b.data_.length →
      ∃ data, r = .ok (add ⟨data, b.cur_⟩ text.length) ∧ Placed b.data_ b.cur_ text data) :
    Takes b (kMaxNumericSize ≤ b.avail) text (if kMaxNumericSize ≤ b.avail then r else pure b) := by
  constructor
  · intro avail
    have room := sound.room_of_avail avail
    have size := sound.size
    obtain ⟨data, ran, placed⟩ := converts room
    refine ⟨add ⟨data, b.cur_⟩ text.length, by rw [if_pos avail, ran], ⟨?_, ?_⟩, placed.view⟩
    · exact placed.size.trans size
    · unfold add
      dsimp only
      omega
  · intro full
    rw [if_neg full, pure_eq_ok]

theorem formatInteger_takes (sound : b.Sound) {signed : Bool} {w : Nat} (width : w ≤ 64)
    (v : Integer signed w) :
    Takes b (kMaxNumericSize ≤ b.avail) (integerText v.value) (b.formatInteger v) := by
  have bound := v.natAbs_lt width
  have short := length_integerText bound
  refine numeric_takes sound (by omega) fun room => ?_
  obtain ⟨data, converted, placed⟩ := convert_spec b.data_ b.cur_ bound (by omega)
  refine ⟨data, ?_, placed.toPlaced⟩
  rw [converted, ok_bind]
  rfl

theorem shlPointer_takes (sound : b.Sound) (v : Fin (2 ^ 64)) :
    Takes b (kMaxNumericSize ≤ b.avail) (pointerText v) (b.shlPointer v) := by
  have short := length_pointerText v.isLt
  have length : (pointerText v).length = ((hexadecimal v).map Char.toUpper).length + 2 := rfl
  refine numeric_takes sound (by omega) fun room => ?_
  obtain ⟨t, first, wrote₀⟩ := put_spec (s := ⟨b.data_, b.cur_⟩) (by dsimp only; omega) '0'
  have place₀ := wrote₀.p
  have size₀ := wrote₀.size
  dsimp only [List.length_singleton] at place₀ size₀
  obtain ⟨u, second, wrote₁⟩ := put_spec (s := t) (by omega) 'x'
  have place₁ := wrote₁.p
  have size₁ := wrote₁.size
  rw [List.length_singleton] at place₁
  obtain ⟨data, converted, placed⟩ := convertHex_spec u.data u.p v.isLt (by omega)
  refine ⟨data, ?_, (wrote₀.trans wrote₁).placed placed.toPlaced⟩
  rw [first, ok_bind, second, ok_bind, converted, ok_bind]
  rfl

theorem shlDouble_takes (sound : b.Sound) (v : Rendered) :
    Takes b (kMaxNumericSize ≤ b.avail) v.text (b.shlDouble v) := by
  have short := v.short
  have whole : snprintf kMaxNumericSize.toNat v.text = v.text :=
    snprintf_fits (Nat.lt_of_le_of_lt short (by decide))
  refine numeric_takes sound short fun room => ?_
  have written : (v.text ++ [nul]).length = v.text.length + 1 := by
    rw [List.length_append, List.length_singleton]
  rw [whole]
  refine ⟨storeAt b.data_ b.cur_ (v.text ++ [nul]), ?_, ?_, length_storeAt _ _ _⟩
  · dsimp only
    rw [assertThat_of_true (by omega), ok_bind, pure_eq_ok]
  · have stored : window (storeAt b.data_ b.cur_ (v.text ++ [nul])) 0
        (b.cur_ + (v.text ++ [nul]).length) = window b.data_ 0 b.cur_ ++ (v.text ++ [nul]) :=
      window_storeAt_back (Nat.zero_le _) (by omega)
    rw [← List.append_assoc] at stored
    obtain ⟨front, -⟩ := window_of_append stored (by rw [length_storeAt]; omega)
    rw [List.length_append, length_window (by omega), Nat.sub_zero] at front
    exact front

end Buffer

/-! ### All pieces -/

def StringPiece.text (v : StringPiece) : List Char := v.ptr_.take v.length_.toNat

def CString.text (str : CString) : List Char := str.chars.takeWhile (· ≠ nul)

def Piece.text : Piece → List Char
  | .bool v => if v then ['1'] else ['0']
  | .char v => [v]
  | .cString (some str) => str.text
  | .cString none => "(null)".toList
  | .string v => v
  | .stringPiece v | .append v => v.text
  | .buffer v => v.buffer.content
  | .fmt v | .float v | .double v => v.text
  | .short v => integerText v.value
  | .unsignedShort v => integerText v.value
  | .int v => integerText v.value
  | .unsignedInt v => integerText v.value
  | .long v | .longLong v => integerText v.value
  | .unsignedLong v | .unsignedLongLong v => integerText v.value
  | .pointer v => pointerText v

/-- The length of a string piece as a size_t; a numeric piece has none. -/
def Piece.size : Piece → Option Nat
  | .bool _ | .char _ => some 1
  | .cString (some str) => some (strlen str)
  | .cString none => some 6
  | .string v => some v.length
  | .stringPiece v | .append v => some (toUnsigned 64 v.length_)
  | .buffer v => some v.buffer.cur_
  | .fmt v => some v.text.length
  | _ => none

/-- Whether a piece is kept. -/
def Buffer.Keeps (b : Buffer) (p : Piece) : Prop :=
  match p.size with
  | some n => n < b.avail
  | none => kMaxNumericSize ≤ b.avail

theorem StringPiece.size_small {v : StringPiece} (small : toUnsigned 64 v.length_ < 4000) :
    0 ≤ v.length_ ∧ toUnsigned 64 v.length_ = v.length_.toNat := by
  obtain ⟨lower, upper⟩ := fits_int.mp v.fits
  unfold toUnsigned at small ⊢
  omega

theorem Nested.toStringPiece_eq (v : Nested) : v.toStringPiece.text = v.buffer.content ∧
    toUnsigned 64 v.toStringPiece.length_ = v.buffer.cur_ := by
  have length : v.toStringPiece.length_ = v.buffer.cur_ := by
    have same := Buffer.length_eq v.inside
    unfold Nested.toStringPiece
    dsimp only
    exact same
  have inside := v.inside
  unfold kSmallBuffer at inside
  constructor
  · rw [StringPiece.text, length, Int.toNat_natCast]
    rfl
  · rw [length]
    have same := toUnsigned_of_lt (w := 64) (Int.natCast_nonneg v.buffer.cur_) (by norm_num; omega)
    omega

def Piece.fits (p : Piece) (avail : Int) : Bool :=
  match p.size with
  | some n => decide (n < avail)
  | none => decide (kMaxNumericSize ≤ avail)

def kept (avail : Int) : List Piece → List Char
  | [] => []
  | p :: ps =>
    if p.fits avail then p.text ++ kept (avail - p.text.length) ps else kept avail ps

theorem exists_kept (avail : Int) (pieces : List Piece) :
    ∃ some_ : List Piece, some_.Sublist pieces ∧
      kept avail pieces = (some_.map Piece.text).flatten := by
  induction pieces generalizing avail with
  | nil => exact ⟨[], List.Sublist.slnil, rfl⟩
  | cons p ps ih =>
    rw [kept]
    split
    · obtain ⟨some_, sublist, same⟩ := ih (avail - p.text.length)
      exact ⟨p :: some_, sublist.cons_cons p, by rw [same, List.map_cons, List.flatten_cons]⟩
    · obtain ⟨some_, sublist, same⟩ := ih avail
      exact ⟨some_, sublist.cons p, same⟩

namespace Buffer
variable {b : Buffer}

theorem shlStringPiece_takes (sound : b.Sound) (v : StringPiece) :
    Takes b (toUnsigned 64 v.length_ < b.avail) v.text (b.shlStringPiece v) := by
  refine append_takes sound fun small => ?_
  obtain ⟨nonneg, same⟩ := v.size_small small
  have readable := v.readable
  rw [same]
  refine ⟨rfl, ?_⟩
  rw [StringPiece.text, List.length_take]
  omega

theorem shl_takes (sound : b.Sound) (p : Piece) : Takes b (b.Keeps p) p.text (b.shl p) := by
  cases p with
  | bool v =>
    cases v with
    | false => exact append_whole sound ['0']
    | true => exact append_whole sound ['1']
  | char v => exact append_whole sound [v]
  | cString str =>
    cases str with
    | none => exact append_whole sound "(null)".toList
    | some str =>
      refine append_takes sound fun _ => ⟨?_, rfl⟩
      exact (List.prefix_iff_eq_take.mp (List.takeWhile_prefix _)).symm
  | string v => exact append_whole sound v
  | fmt v => exact append_whole sound v.text
  | stringPiece v => exact shlStringPiece_takes sound v
  | append v => exact shlStringPiece_takes sound v
  | buffer v =>
    have takes := shlStringPiece_takes sound v.toStringPiece
    rwa [v.toStringPiece_eq.1, v.toStringPiece_eq.2] at takes
  | short v => exact formatInteger_takes sound (by decide) v.promote
  | unsignedShort v => exact formatInteger_takes sound (by decide) v.promote
  | int v => exact formatInteger_takes sound (by decide) v
  | unsignedInt v => exact formatInteger_takes sound (by decide) v
  | long v => exact formatInteger_takes sound (Nat.le_refl _) v
  | unsignedLong v => exact formatInteger_takes sound (Nat.le_refl _) v
  | longLong v => exact formatInteger_takes sound (Nat.le_refl _) v
  | unsignedLongLong v => exact formatInteger_takes sound (Nat.le_refl _) v
  | pointer v => exact shlPointer_takes sound v
  | float v => exact shlDouble_takes sound v
  | double v => exact shlDouble_takes sound v

theorem fits_iff_keeps {p : Piece} : p.fits b.avail = true ↔ b.Keeps p := by
  unfold Piece.fits Keeps
  cases p.size <;> exact decide_eq_true_iff

theorem Sound.length_content (sound : b.Sound) : b.content.length = b.cur_ := by
  have room := sound.room
  rw [content, length_window (by rw [sound.size]; omega), Nat.sub_zero]

theorem Sound.avail_content (sound : b.Sound) : b.avail = 4000 - b.content.length := by
  rw [sound.avail_eq, sound.length_content]

theorem shlAll_kept (sound : b.Sound) (pieces : List Piece) :
    ∃ b', b.shlAll pieces = .ok b' ∧ b'.Sound ∧
      b'.content = b.content ++ kept b.avail pieces := by
  induction pieces generalizing b with
  | nil => exact ⟨b, rfl, sound, (List.append_nil _).symm⟩
  | cons p ps ih =>
    have takes := shl_takes sound p
    rw [kept]
    by_cases keeps : b.Keeps p
    · obtain ⟨b₁, first, sound₁, content₁⟩ := takes.kept keeps
      obtain ⟨b', rest, sound', content⟩ := ih sound₁
      have avail : b₁.avail = b.avail - p.text.length := by
        rw [sound₁.avail_content, sound.avail_content, content₁, List.length_append]
        omega
      refine ⟨b', ?_, sound', ?_⟩
      · rw [shlAll, List.foldlM_cons, first, ok_bind]
        exact rest
      · rw [if_pos (fits_iff_keeps.mpr keeps), content, content₁, avail, List.append_assoc]
    · obtain ⟨b', rest, sound', content⟩ := ih sound
      refine ⟨b', ?_, sound', ?_⟩
      · rw [shlAll, List.foldlM_cons, takes.dropped keeps, ok_bind]
        exact rest
      · rw [if_neg (fun fits => keeps (fits_iff_keeps.mp fits)), content]

theorem shlAll_spec (sound : b.Sound) (pieces : List Piece) :
    ∃ b', b.shlAll pieces = .ok b' ∧ b'.Sound ∧
      ∃ kept : List Piece, kept.Sublist pieces ∧
        b'.content = b.content ++ (kept.map Piece.text).flatten := by
  obtain ⟨b', ran, sound', content⟩ := shlAll_kept sound pieces
  obtain ⟨some_, sublist, texts⟩ := exists_kept b.avail pieces
  exact ⟨b', ran, sound', some_, sublist, by rw [content, texts]⟩

end Buffer

/-- From an empty buffer, whatever its array holds. -/
theorem writes_whole_pieces {data : List Char} (size : data.length = kSmallBuffer)
    (pieces : List Piece) : ∃ b, Buffer.shlAll ⟨data, 0⟩ pieces = .ok b ∧
      b.length = b.content.length ∧ b.length ≤ 3999 ∧
      (∃ kept : List Piece, kept.Sublist pieces ∧ b.content = (kept.map Piece.text).flatten) ∧
      ∀ p, ∃ b', b.shl p = .ok b' ∧ (b.Keeps p → b'.content = b.content ++ p.text) ∧
        (¬b.Keeps p → b' = b) := by
  have start : Buffer.Sound ⟨data, 0⟩ := ⟨size, (by decide : 0 < kSmallBuffer)⟩
  obtain ⟨b, ran, sound, kept, sublist, content⟩ := Buffer.shlAll_spec start pieces
  have room := sound.room
  have length := Buffer.length_eq (Nat.le_of_lt room)
  refine ⟨b, ran, ?_, ?_, ⟨kept, sublist, content⟩, ?_⟩
  · rw [length, sound.length_content]
  · unfold kSmallBuffer at room
    omega
  · intro p
    have takes := Buffer.shl_takes sound p
    by_cases keeps : b.Keeps p
    · obtain ⟨b', stepped, -, appended⟩ := takes.kept keeps
      exact ⟨b', stepped, fun _ => appended, fun refused => absurd keeps refused⟩
    · exact ⟨b, takes.dropped keeps, fun kept => absurd kept keeps, fun _ => rfl⟩

def mixedPieces : List Piece :=
  [.bool true, .string "abc".toList, .int ⟨-12, by decide⟩, .string (List.replicate 4000 'y'),
    .pointer 255, .cString none]

theorem writes_whole_pieces_of_mixed : ∃ b,
    Buffer.shlAll ⟨List.replicate 4000 'z', 0⟩ mixedPieces = .ok b ∧
      b.content = "1abc-120xFF(null)".toList ∧ b.length ≤ 3999 := by
  have size : (List.replicate 4000 'z').length = kSmallBuffer := List.length_replicate
  obtain ⟨b, ran, -, bound, -⟩ := writes_whole_pieces size mixedPieces
  have computed : (Buffer.shlAll ⟨List.replicate 4000 'z', 0⟩ mixedPieces).toOption.map
      Buffer.content = some "1abc-120xFF(null)".toList := by decide +kernel
  rw [ran] at computed
  exact ⟨b, ran, Option.some.inj computed, bound⟩

end LogStream
end Muduo
