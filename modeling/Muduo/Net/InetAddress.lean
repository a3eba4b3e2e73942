import Muduo.Lib.Text

/-!
InetAddress.cc and the two functions of SocketsOps.cc that print an address.
inet_ntop is the C library's: dotted decimal for IPv4; for IPv6 the words in
hexadecimal, the first longest run of two or more zero words left out, and the
last two words in dotted decimal when the address embeds an IPv4 one. Byte order
and parsing are left out.
-/
namespace Muduo
open Lib

inductive InetAddress where
  | ipv4 (a b c d : UInt8) (port : UInt16)
  | ipv6 (words : Vector UInt16 8) (port : UInt16)
  deriving DecidableEq, Repr

namespace InetAddress
variable {words : List UInt16}

def dotted (a b c d : Nat) : List Char :=
  decimal a ++ '.' :: decimal b ++ '.' :: decimal c ++ '.' :: decimal d

/-- The longer of two runs of zero words, given as first index and length; the
    earlier one when they are equally long. -/
def longer (best current : Option (Nat × Nat)) : Option (Nat × Nat) :=
  match best, current with
  | best, none => best
  | none, some run => some run
  | some old, some run => if old.2 < run.2 then some run else some old

def extend (i : Nat) : Option (Nat × Nat) → Option (Nat × Nat)
  | none => some (i, 1)
  | some (base, length) => some (base, length + 1)

def scan : Nat → List UInt16 → Option (Nat × Nat) → Option (Nat × Nat) → Option (Nat × Nat)
  | _, [], best, current => longer best current
  | i, w :: ws, best, current =>
    if w = 0 then scan (i + 1) ws best (extend i current)
    else scan (i + 1) ws (longer best current) none

def zeroRun (words : List UInt16) : Option (Nat × Nat) :=
  (scan 0 words none none).filter fun run => 2 ≤ run.2

def inside (i : Nat) : Option (Nat × Nat) → Bool
  | none => false
  | some (base, length) => base ≤ i && i < base + length

def opens (i : Nat) (run : Option (Nat × Nat)) : Bool := run.any fun r => r.1 = i

def trailing (run : Option (Nat × Nat)) : Bool := run.any fun r => r.1 + r.2 = 8

def encapsulates (words : List UInt16) (run : Option (Nat × Nat)) : Bool :=
  run = some (0, 6) || (run = some (0, 5) && words[5]? = some 0xffff)

def printWord (run : Option (Nat × Nat)) (i : Nat) (w : UInt16) : List Char :=
  if inside i run then
    if opens i run then [':'] else []
  else
    (if i = 0 then [] else [':']) ++ hexadecimal w.toNat

def printWords (run : Option (Nat × Nat)) : Nat → List UInt16 → List Char
  | _, [] => []
  | i, w :: ws => printWord run i w ++ printWords run (i + 1) ws

def printTail : List UInt16 → List Char
  | [v, w] => dotted (v.toNat / 256) (v.toNat % 256) (w.toNat / 256) (w.toNat % 256)
  | _ => []

def inet_ntop6 (words : List UInt16) : List Char :=
  let run := zeroRun words
  if encapsulates words run then printWords run 0 (words.take 6) ++ ':' :: printTail (words.drop 6)
  else printWords run 0 words ++ if trailing run then [':'] else []

def toIp : InetAddress → List Char
  | .ipv4 a b c d _ => dotted a.toNat b.toNat c.toNat d.toNat
  | .ipv6 words _ => inet_ntop6 words.toList

def toIpPort (addr : InetAddress) : List Char :=
  match addr with
  | .ipv4 _ _ _ _ port =>
    let ip := addr.toIp
    ip ++ snprintf (64 - ip.length) (':' :: decimal port.toNat)
  | .ipv6 _ port =>
    let ip := '[' :: addr.toIp
    ip ++ snprintf (64 - ip.length) (']' :: ':' :: decimal port.toNat)

theorem length_dotted {a b c d : Nat} (ha : a < 256) (hb : b < 256) (hc : c < 256) (hd : d < 256) :
    (dotted a b c d).length ≤ 15 := by
  have byte : ∀ n, n < 256 → (decimal n).length ≤ 3 := by
    intro n small
    exact length_decimal_le (by decide) (by omega)
  have ha := byte a ha
  have hb := byte b hb
  have hc := byte c hc
  have hd := byte d hd
  simp only [dotted, List.length_append, List.length_cons]
  omega

theorem length_word (w : UInt16) : (hexadecimal w.toNat).length ≤ 4 :=
  length_hexadecimal_le (by decide) w.toNat_lt

theorem zeroRun_long {base length : Nat} (found : zeroRun words = some (base, length)) :
    2 ≤ length := by
  unfold zeroRun at found
  have long := (Option.filter_eq_some_iff.mp found).2
  simpa using long

theorem length_printWord (run : Option (Nat × Nat)) (i : Nat) (w : UInt16) :
    (printWord run i w).length + (if i = 0 then 1 else 0) ≤ 5 := by
  have word := length_word w
  unfold printWord
  by_cases within : inside i run
  · rw [if_pos within]
    split <;> split <;> simp
  · rw [if_neg within]
    split <;> simp <;> omega

theorem length_printWords (run : Option (Nat × Nat)) (i : Nat) (ws : List UInt16) :
    (printWords run i ws).length + (if i = 0 ∧ ws ≠ [] then 1 else 0) ≤ 5 * ws.length := by
  induction ws generalizing i with
  | nil => simp [printWords]
  | cons w ws ih =>
    have here := length_printWord run i w
    have rest := ih (i + 1)
    simp only [Nat.add_eq_zero_iff, one_ne_zero, and_false, false_and, if_false] at rest
    simp only [printWords, List.length_append, List.length_cons, ne_eq, reduceCtorEq,
      not_false_eq_true, and_true]
    omega

theorem printWords_append (run : Option (Nat × Nat)) (i : Nat) (vs ws : List UInt16) :
    printWords run i (vs ++ ws) = printWords run i vs ++ printWords run (i + vs.length) ws := by
  induction vs generalizing i with
  | nil => rfl
  | cons v vs ih =>
    simp only [List.cons_append, printWords, ih (i + 1), List.append_assoc, List.length_cons]
    rw [Nat.add_assoc, Nat.add_comm 1]

theorem printWords_trailing {run : Option (Nat × Nat)} {w : UInt16}
    (long : ∀ base length, run = some (base, length) → 2 ≤ length) (ends : trailing run = true) :
    printWords run 7 [w] = [] := by
  cases run with
  | none => cases ends
  | some r =>
    obtain ⟨base, length⟩ := r
    have two := long base length rfl
    simp only [trailing, Option.any_some, decide_eq_true_eq] at ends
    have within : inside 7 (some (base, length)) = true := by
      simp only [inside, Bool.and_eq_true, decide_eq_true_eq]
      omega
    have later : opens 7 (some (base, length)) = false := by
      simp only [opens, Option.any_some, decide_eq_false_iff_not]
      omega
    simp [printWords, printWord, within, later]

theorem length_printTail (ws : List UInt16) : (printTail ws).length ≤ 15 := by
  unfold printTail
  split
  · rename_i v w
    have hv := v.toNat_lt
    have hw := w.toNat_lt
    exact length_dotted (by omega) (by omega) (by omega) (by omega)
  · exact Nat.zero_le _

theorem length_encapsulated {run : Option (Nat × Nat)} (shown : encapsulates words run = true)
    (eight : words.length = 8) :
    (printWords run 0 (words.take 6)).length ≤ 6 := by
  match words, eight with
  | [a, b, c, d, e, f, _, _], _ =>
    have word := length_word f
    simp only [encapsulates, Bool.or_eq_true, Bool.and_eq_true, decide_eq_true_eq] at shown
    rcases shown with rfl | ⟨rfl, -⟩
    · simp [printWords, printWord, inside, opens]
    · simp [printWords, printWord, inside, opens]
      omega

theorem length_inet_ntop6 (eight : words.length = 8) :
    (inet_ntop6 words).length ≤ 39 := by
  unfold inet_ntop6
  simp only
  split
  · rename_i shown
    have front := length_encapsulated shown eight
    have tail := length_printTail (words.drop 6)
    simp only [List.length_append, List.length_cons]
    omega
  · have long : ∀ base length, zeroRun words = some (base, length) → 2 ≤ length :=
      fun _ _ found => zeroRun_long found
    by_cases ends : trailing (zeroRun words) = true
    · obtain ⟨front, last, rfl⟩ : ∃ front last, words = front ++ [last] :=
        ⟨words.dropLast, words.getLast (by rintro rfl; cases eight),
          (List.dropLast_concat_getLast _).symm⟩
      have seven : front.length = 7 := by simpa using eight
      have bound := length_printWords (zeroRun (front ++ [last])) 0 front
      rw [printWords_append, seven, Nat.zero_add, printWords_trailing long ends]
      simp only [ends, if_true, List.length_append, List.length_nil, List.length_singleton]
      omega
    · have bound := length_printWords (zeroRun words) 0 words
      have some : words ≠ [] := by
        rintro rfl
        cases eight
      simp only [some, ne_eq, not_false_eq_true, and_self, if_true] at bound
      rw [if_neg ends, List.append_nil]
      omega

theorem length_port (port : UInt16) : (decimal port.toNat).length ≤ 5 := by
  have small := port.toNat_lt
  exact length_decimal_le (by decide) (by omega)

theorem length_toIpPort (addr : InetAddress) : addr.toIpPort.length ≤ 47 := by
  cases addr with
  | ipv4 a b c d port =>
    have ip := length_dotted a.toNat_lt b.toNat_lt c.toNat_lt d.toNat_lt
    have port := length_port port
    simp only [toIpPort, toIp, snprintf, List.length_append, List.length_take, List.length_cons]
    omega
  | ipv6 words port =>
    have ip : (inet_ntop6 words.toList).length ≤ 39 := length_inet_ntop6 (by simp)
    have port := length_port port
    simp only [toIpPort, toIp, snprintf, List.length_append, List.length_take, List.length_cons]
    omega

example : toIpPort (.ipv6 #v[0, 0, 0, 0, 0, 0xffff, 0x7f00, 1] 80) = "[::ffff:127.0.0.1]:80".toList := by
  decide

example : toIpPort (.ipv6 #v[0x2001, 0xdb8, 0, 0, 1, 0, 0, 0] 9981) = "[2001:db8:0:0:1::]:9981".toList := by
  decide

end InetAddress
end Muduo
