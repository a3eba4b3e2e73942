import Mathlib.Algebra.Ring.Nat
import Mathlib.Data.List.Basic

/-!
Numbers as bytes in network order.
-/
namespace Lib

def bigEndian : Nat → Nat → List UInt8
  | 0, _ => []
  | n + 1, x => bigEndian n (x / 256) ++ [UInt8.ofNat x]

def ofBigEndian (xs : List UInt8) : Nat := xs.foldl (fun x byte => x * 256 + byte.toNat) 0

@[simp] theorem length_bigEndian (n x : Nat) : (bigEndian n x).length = n := by
  induction n generalizing x with
  | zero => rfl
  | succ n ih => simp [bigEndian, ih]

theorem ofBigEndian_append (xs : List UInt8) (byte : UInt8) :
    ofBigEndian (xs ++ [byte]) = ofBigEndian xs * 256 + byte.toNat := by
  simp [ofBigEndian]

theorem ofBigEndian_bigEndian (n x : Nat) : ofBigEndian (bigEndian n x) = x % 256 ^ n := by
  induction n generalizing x with
  | zero => simp [bigEndian, ofBigEndian, Nat.mod_one]
  | succ n ih =>
    have last : (UInt8.ofNat x).toNat = x % 256 := UInt8.toNat_ofNat'
    rw [bigEndian, ofBigEndian_append, ih, last, Nat.pow_succ', Nat.mod_mul]
    omega

theorem bigEndian_ofBigEndian {n : Nat} {xs : List UInt8} (length : xs.length = n) :
    bigEndian n (ofBigEndian xs) = xs := by
  induction n generalizing xs with
  | zero => exact (List.eq_nil_of_length_eq_zero length).symm
  | succ n ih =>
    rcases List.eq_nil_or_concat xs with rfl | ⟨ys, byte, rfl⟩
    · simp at length
    · simp only [List.concat_eq_append, List.length_append, List.length_singleton,
        Nat.add_right_cancel_iff] at length
      have small := byte.toNat_lt
      have first : (ofBigEndian ys * 256 + byte.toNat) / 256 = ofBigEndian ys := by omega
      have last : UInt8.ofNat (ofBigEndian ys * 256 + byte.toNat) = byte := by
        apply UInt8.toNat_inj.mp
        rw [UInt8.toNat_ofNat']
        omega
      rw [List.concat_eq_append, ofBigEndian_append, bigEndian, first, last, ih length]

theorem ofBigEndian_lt (xs : List UInt8) : ofBigEndian xs < 256 ^ xs.length := by
  have same := ofBigEndian_bigEndian xs.length (ofBigEndian xs)
  rw [bigEndian_ofBigEndian rfl] at same
  rw [same]
  exact Nat.mod_lt _ (Nat.pow_pos (by omega))

end Lib
