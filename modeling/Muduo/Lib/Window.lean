import Mathlib.Data.List.Basic

/-!
Windows of a list that is used as a fixed array: the elements between two
indices, elementwise stores, and a forward copy inside the same array. The copy
reads each element after the earlier stores, so overlap is part of the model.
-/
namespace Lib
variable {α : Type} {xs : List α} {lo hi : Nat}

def window (xs : List α) (lo hi : Nat) : List α := (xs.take hi).drop lo

def storeAt : List α → Nat → List α → List α
  | xs, _, [] => xs
  | xs, pos, d :: ds => storeAt (xs.set pos d) (pos + 1) ds

def copyForward : List α → Nat → Nat → Nat → List α
  | xs, _, _, 0 => xs
  | xs, src, dst, n + 1 =>
    match xs[src]? with
    | some x => copyForward (xs.set dst x) (src + 1) (dst + 1) n
    | none => xs

@[simp] theorem length_storeAt (xs : List α) (pos : Nat) (data : List α) :
    (storeAt xs pos data).length = xs.length := by
  induction data generalizing xs pos with
  | nil => rfl
  | cons d ds ih => simp [storeAt, ih]

@[simp] theorem length_copyForward (xs : List α) (src dst n : Nat) :
    (copyForward xs src dst n).length = xs.length := by
  induction n generalizing xs src dst with
  | zero => rfl
  | succ n ih =>
    simp only [copyForward]
    split
    · simp [ih]
    · rfl

theorem getElem?_window (xs : List α) (lo hi i : Nat) :
    (window xs lo hi)[i]? = if lo + i < hi then xs[lo + i]? else none := by
  simp only [window, List.getElem?_drop, List.getElem?_take]

theorem length_window (bound : hi ≤ xs.length) :
    (window xs lo hi).length = hi - lo := by
  simp [window, Nat.min_eq_left bound]

theorem window_empty (xs : List α) (h : hi ≤ lo) : window xs lo hi = [] := by
  simp only [window, List.drop_eq_nil_iff, List.length_take]
  omega

theorem getElem?_storeAt (xs : List α) (pos : Nat) (data : List α)
    (fits : pos + data.length ≤ xs.length) (i : Nat) :
    (storeAt xs pos data)[i]? =
      if pos ≤ i ∧ i < pos + data.length then data[i - pos]? else xs[i]? := by
  induction data generalizing xs pos with
  | nil =>
    simp only [storeAt, List.length_nil, Nat.add_zero]
    rw [if_neg (by omega)]
  | cons d ds ih =>
    simp only [List.length_cons] at fits
    simp only [storeAt, List.length_cons]
    rw [ih (xs.set pos d) (pos + 1) (by simp; omega)]
    by_cases at_pos : i = pos
    · subst at_pos
      rw [if_neg (by omega), if_pos (by omega), List.getElem?_set_self (by omega)]
      simp
    · by_cases inside : pos + 1 ≤ i ∧ i < pos + 1 + ds.length
      · rw [if_pos inside, if_pos (by omega)]
        obtain ⟨k, rfl⟩ : ∃ k, i = pos + 1 + k := ⟨i - (pos + 1), by omega⟩
        have e : pos + 1 + k - pos = k + 1 := by omega
        rw [e, List.getElem?_cons_succ]
        congr 1
        omega
      · rw [if_neg inside, if_neg (by omega), List.getElem?_set_ne (by omega)]

/-- Forward copying to a lower index never overwrites an element it has still to
    read, so the copied block equals the original block. -/
theorem getElem?_copyForward (xs : List α) (src dst n : Nat) (down : dst ≤ src)
    (fits : src + n ≤ xs.length) (i : Nat) :
    (copyForward xs src dst n)[i]? =
      if dst ≤ i ∧ i < dst + n then xs[src + (i - dst)]? else xs[i]? := by
  induction n generalizing xs src dst with
  | zero =>
    simp only [copyForward]
    rw [if_neg (by omega)]
  | succ n ih =>
    have read : xs[src]? = some xs[src] := List.getElem?_eq_getElem (by omega)
    simp only [copyForward, read]
    rw [ih (xs.set dst xs[src]) (src + 1) (dst + 1) (by omega) (by simp; omega)]
    by_cases at_dst : i = dst
    · subst at_dst
      rw [if_neg (by omega), if_pos (by omega), List.getElem?_set_self (by omega)]
      simp
    · by_cases inside : dst + 1 ≤ i ∧ i < dst + 1 + n
      · rw [if_pos inside, if_pos (by omega), List.getElem?_set_ne (by omega)]
        congr 1
        omega
      · rw [if_neg inside, if_neg (by omega), List.getElem?_set_ne (by omega)]

theorem window_storeAt_back {data : List α} (le : lo ≤ hi) (fits : hi + data.length ≤ xs.length) :
    window (storeAt xs hi data) lo (hi + data.length) = window xs lo hi ++ data := by
  apply List.ext_getElem?
  intro i
  have len : (window xs lo hi).length = hi - lo := length_window (by omega)
  rw [getElem?_window, getElem?_storeAt xs hi data fits, List.getElem?_append, len,
    getElem?_window]
  by_cases old : i < hi - lo
  · rw [if_pos (by omega), if_neg (by omega), if_pos old, if_pos (by omega)]
  · rw [if_neg old]
    by_cases new : lo + i < hi + data.length
    · rw [if_pos new, if_pos (by omega)]
      congr 1
      omega
    · rw [if_neg new, List.getElem?_eq_none (by omega)]

theorem window_storeAt_front {data : List α} (room : data.length ≤ lo) (le : lo ≤ hi)
    (fits : hi ≤ xs.length) :
    window (storeAt xs (lo - data.length) data) (lo - data.length) hi
      = data ++ window xs lo hi := by
  apply List.ext_getElem?
  intro i
  rw [getElem?_window, getElem?_storeAt xs _ data (by omega), List.getElem?_append,
    getElem?_window]
  by_cases new : i < data.length
  · rw [if_pos (by omega), if_pos (by omega), if_pos new]
    congr 1
    omega
  · rw [if_neg new]
    by_cases old : lo - data.length + i < hi
    · rw [if_pos old, if_neg (by omega), if_pos (by omega)]
      congr 1
      omega
    · rw [if_neg old, if_neg (by omega)]

theorem window_append_left {ys : List α} (fits : hi ≤ xs.length) :
    window (xs ++ ys) lo hi = window xs lo hi := by
  simp [window, List.take_append_of_le_length fits]

theorem window_copyForward {src dst n : Nat} (down : dst ≤ src) (fits : src + n ≤ xs.length) :
    window (copyForward xs src dst n) dst (dst + n) = window xs src (src + n) := by
  apply List.ext_getElem?
  intro i
  rw [getElem?_window, getElem?_window, getElem?_copyForward xs src dst n down fits]
  by_cases inside : i < n
  · rw [if_pos (by omega), if_pos (by omega), if_pos (by omega)]
    congr 1
    omega
  · rw [if_neg (by omega), if_neg (by omega)]

theorem drop_window (xs : List α) (lo hi n : Nat) :
    (window xs lo hi).drop n = window xs (lo + n) hi := by
  simp [window, List.drop_drop]

theorem take_window (xs : List α) (lo hi n : Nat) (h : lo + n ≤ hi) :
    (window xs lo hi).take n = window xs lo (lo + n) := by
  apply List.ext_getElem?
  intro i
  rw [List.getElem?_take, getElem?_window, getElem?_window]
  by_cases inside : i < n
  · rw [if_pos inside, if_pos (by omega), if_pos (by omega)]
  · rw [if_neg inside, if_neg (by omega)]

theorem window_of_append {front back : List α} (whole : window xs 0 hi = front ++ back)
    (bound : hi ≤ xs.length) :
    window xs 0 front.length = front ∧
      window xs front.length (front.length + back.length) = back := by
  have length := congrArg List.length whole
  rw [length_window bound, List.length_append, Nat.sub_zero] at length
  constructor
  · have cut := take_window xs 0 hi front.length (by omega)
    rw [whole, List.take_left, Nat.zero_add] at cut
    exact cut.symm
  · have cut := drop_window xs 0 hi front.length
    rw [whole, List.drop_left, Nat.zero_add, length] at cut
    exact cut.symm

def iterSwap (xs : List α) (i j : Nat) : List α :=
  match xs[i]?, xs[j]? with
  | some x, some y => (xs.set i y).set j x
  | _, _ => xs

theorem getElem?_dropLast_iterSwap {i last : Nat} (size : xs.length = last + 1) (before : i < last)
    (k : Nat) :
    (iterSwap xs i last).dropLast[k]? =
      if k = i then xs[last]? else if k < last then xs[k]? else none := by
  obtain ⟨x, here⟩ : ∃ x, xs[i]? = some x := ⟨_, List.getElem?_eq_getElem (by omega)⟩
  obtain ⟨y, end_⟩ : ∃ y, xs[last]? = some y := ⟨_, List.getElem?_eq_getElem (by omega)⟩
  have swapped : iterSwap xs i last = (xs.set i y).set last x := by
    simp only [iterSwap, here, end_]
  rw [swapped, List.getElem?_dropLast, List.length_set, List.length_set, size]
  by_cases inside : k < last
  · rw [if_pos (by omega), List.getElem?_set_ne (by omega)]
    by_cases moved : k = i
    · subst moved
      rw [if_pos rfl, List.getElem?_set_self (by omega), end_]
    · rw [if_neg moved, if_pos inside, List.getElem?_set_ne (by omega)]
  · rw [if_neg (by omega), if_neg (by omega), if_neg inside]

theorem length_dropLast_iterSwap {i last : Nat} (size : xs.length = last + 1) :
    (iterSwap xs i last).dropLast.length = last := by
  have same : (iterSwap xs i last).length = xs.length := by
    unfold iterSwap
    split
    · simp
    · rfl
  rw [List.length_dropLast, same, size]
  rfl

end Lib
