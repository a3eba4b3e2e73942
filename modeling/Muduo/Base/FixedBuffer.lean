import Muduo.Base.AsyncLogging
import Muduo.Base.LogStreamRuns

/-!
FixedBuffer of LogStream.h is modelled as an array with cur_, for the streams that write into
it, and as the lines that were copied into it, for the logging thread. Every sequence of calls
does the same to both.
-/
namespace Muduo
open Lib Lib.Signed
namespace FixedBuffer
variable {SIZE : Nat} {array : LogStream.Buffer} {b : FixedBuffer SIZE}

structure Holds (array : LogStream.Buffer) (b : FixedBuffer SIZE) : Prop where
  size : array.data_.length = SIZE
  cur : array.cur_ = b.length
  text : array.content = b.data

inductive Call where
  | append (buf : List Char)
  | reset

def call (b : FixedBuffer SIZE) : Call → FixedBuffer SIZE
  | .append buf => b.append buf
  | .reset => b.reset

def callArray (array : LogStream.Buffer) : Call → Checked LogStream.Buffer
  | .append buf => array.append buf buf.length
  | .reset => pure { array with cur_ := 0 }

theorem Holds.inside (holds : Holds array b) : array.cur_ ≤ array.data_.length := by
  rw [holds.size, holds.cur]
  exact b.fits

theorem append_holds (int_ : SIZE < 2147483648) (holds : Holds array b) (buf : List Char) :
    ∃ array', array.append buf buf.length = .ok array' ∧ Holds array' (b.append buf) := by
  have inside := holds.inside
  have room : array.data_.length - array.cur_ = b.avail := by
    rw [holds.size, holds.cur, avail]
  have appends := LogStream.Buffer.append_eq inside (holds.size ▸ int_)
    (fun _ => Nat.le_refl buf.length)
  rw [room, List.take_length] at appends
  refine ⟨_, appends, ?_⟩
  unfold append
  by_cases short : buf.length < b.avail
  · have fits : array.cur_ + buf.length ≤ array.data_.length := by omega
    have stored := window_storeAt_back (Nat.zero_le array.cur_) fits
    rw [if_pos short, dif_pos short]
    refine ⟨?_, ?_, ?_⟩
    · rw [length_storeAt]
      exact holds.size
    · simp [length, data, holds.cur]
    · have text := holds.text
      unfold LogStream.Buffer.content at text ⊢
      rw [stored, text]
      simp [data]
  · rw [if_neg short, dif_neg short]
    exact holds

theorem call_holds (int_ : SIZE < 2147483648) (holds : Holds array b) (c : Call) :
    ∃ array', callArray array c = .ok array' ∧ Holds array' (b.call c) := by
  cases c with
  | append buf => exact append_holds int_ holds buf
  | reset => exact ⟨_, rfl, holds.size, rfl, window_empty _ (Nat.le_refl _)⟩

theorem run_holds (int_ : SIZE < 2147483648) (holds : Holds array b) (calls : List Call) :
    ∃ array', calls.foldlM callArray array = .ok array' ∧ Holds array' (calls.foldl call b) := by
  induction calls generalizing array b with
  | nil => exact ⟨array, rfl, holds⟩
  | cons c calls ih =>
    obtain ⟨array', first, holds'⟩ := call_holds int_ holds c
    obtain ⟨last, rest, holds''⟩ := ih holds'
    exact ⟨last, by rw [List.foldlM_cons, first, ok_bind, rest], holds''⟩

/-- The array, whatever it held at first, holds the lines after every sequence of calls, no store
    is outside of it, and length() and avail() are those of the lines. -/
theorem array_holds_lines (int_ : SIZE < 2147483648) {data : List Char} (size : data.length = SIZE)
    (calls : List Call) :
    ∃ array, calls.foldlM callArray ⟨data, 0⟩ = .ok array ∧
      Holds array (calls.foldl call (.empty : FixedBuffer SIZE)) ∧
      array.length = (calls.foldl call (.empty : FixedBuffer SIZE)).length ∧
      array.avail = (calls.foldl call (.empty : FixedBuffer SIZE)).avail := by
  have start : Holds ⟨data, 0⟩ (.empty : FixedBuffer SIZE) :=
    ⟨size, rfl, window_empty _ (Nat.le_refl _)⟩
  obtain ⟨array, ran, holds⟩ := run_holds int_ start calls
  have inside := holds.inside
  have cur := holds.cur
  have size' := holds.size
  refine ⟨array, ran, holds, ?_, ?_⟩
  · rw [LogStream.Buffer.length, toSigned_of_fits (fits_int.mpr (by omega)), cur]
  · rw [LogStream.Buffer.avail_eq inside (by omega), avail]
    omega

end FixedBuffer
end Muduo
