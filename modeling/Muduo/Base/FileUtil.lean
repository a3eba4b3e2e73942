import Mathlib.Data.Nat.Find
import Mathlib.Order.Monotone.Basic
import Muduo.Lib.Checked

/-!
FileUtil::AppendFile. A file opened for appending takes bytes through fwrite, which
reports how many it accepted; `append` calls it again for the rest, and stops early
when the stream's error flag is set. The bytes accepted reach the disk at the latest
when the stream is flushed or closed.
-/
namespace Muduo
open Lib
namespace FileUtil

structure AppendFile where
  filename : List Char
  accepted : List UInt8
  /-- How many of them fflush or fclose has written out. -/
  flushed : Nat
  writtenBytes_ : Nat
  deriving DecidableEq, Repr

/-- One call of fwrite_unlocked: the count it returns and what ferror says after it. -/
structure Fwrite where
  n : Nat
  ferror : Bool
  deriving DecidableEq, Repr

namespace AppendFile

def new (filename : List Char) (fp : Bool) : Checked AppendFile := do
  assertThat (fp = true) "fp_"
  pure ⟨filename, [], 0, 0⟩

def flush (f : AppendFile) : AppendFile := { f with flushed := f.accepted.length }

def close (f : AppendFile) : AppendFile := f.flush

def appendLoop (logline : List UInt8) :
    List Fwrite → Nat → List UInt8 → Checked (List UInt8 × Nat)
  | [], written, accepted =>
    if written = logline.length then pure (accepted, written)
    else .error "while (written != len)"
  | w :: ws, written, accepted =>
    if written = logline.length then pure (accepted, written)
    else
      let remain := logline.length - written
      let accepted := accepted ++ (logline.drop written).take w.n
      -- the break leaves before `written += n`
      if w.n ≠ remain ∧ w.ferror then pure (accepted, written)
      else appendLoop logline ws (written + w.n) accepted

def append (f : AppendFile) (logline : List UInt8) (writes : List Fwrite) :
    Checked AppendFile := do
  let done ← appendLoop logline writes 0 []
  pure { f with accepted := f.accepted ++ done.1, writtenBytes_ := f.writtenBytes_ + done.2 }

end AppendFile

/-- Every fwrite accepts all it is given, so there is one, or none for no bytes. -/
def AcceptsAll (logline : List UInt8) (writes : List Fwrite) : Prop :=
  writes.map (·.n) = if logline = [] then [] else [logline.length]

instance (logline : List UInt8) (writes : List Fwrite) : Decidable (AcceptsAll logline writes) :=
  inferInstanceAs (Decidable (_ = _))

namespace AppendFile
variable {f : AppendFile} {logline : List UInt8} {writes : List Fwrite}

theorem appendLoop_acceptsAll (accepts : AcceptsAll logline writes) :
    appendLoop logline writes 0 [] = .ok (logline, logline.length) := by
  unfold AcceptsAll at accepts
  split at accepts
  · rename_i empty
    rw [List.map_eq_nil_iff.mp accepts, empty]
    rfl
  · rename_i some
    obtain ⟨w, rest, rfl, whole, none⟩ := List.map_eq_cons_iff.mp accepts
    rw [List.map_eq_nil_iff.mp none]
    have positive : ¬0 = logline.length := fun zero => some (List.length_eq_zero_iff.mp zero.symm)
    simp [appendLoop, positive, whole]

theorem append_acceptsAll (accepts : AcceptsAll logline writes) :
    f.append logline writes = .ok { f with
      accepted := f.accepted ++ logline, writtenBytes_ := f.writtenBytes_ + logline.length } := by
  unfold append
  rw [appendLoop_acceptsAll accepts]
  rfl

@[simp] theorem accepted_flush (f : AppendFile) : f.flush.accepted = f.accepted := rfl

@[simp] theorem filename_flush (f : AppendFile) : f.flush.filename = f.filename := rfl

@[simp] theorem accepted_close (f : AppendFile) : f.close.accepted = f.accepted := rfl

@[simp] theorem filename_close (f : AppendFile) : f.close.filename = f.filename := rfl

end AppendFile

/-! ### The accounts of append -/

def firstResults (results : Nat → Fwrite) : Nat → List Fwrite
  | 0 => []
  | k + 1 => results 0 :: firstResults (fun i => results (i + 1)) k

def counted : List Fwrite → Nat
  | [] => 0
  | w :: ws => w.n + counted ws

/-- No fwrite accepts more than it was given. -/
def Bounded (logline : List UInt8) : Nat → List Fwrite → Prop
  | _, [] => True
  | written, w :: ws => written ≠ logline.length → w.n ≤ logline.length - written ∧
      (¬(w.n ≠ logline.length - written ∧ w.ferror) → Bounded logline (written + w.n) ws)

/-- The fwrite that the loop stops at on an error has accepted nothing. -/
def StopsClean (logline : List UInt8) : Nat → List Fwrite → Prop
  | _, [] => True
  | written, w :: ws => written ≠ logline.length →
      if w.n ≠ logline.length - written ∧ w.ferror then w.n = 0
      else StopsClean logline (written + w.n) ws

section
variable {logline : List UInt8} {ws : List Fwrite} {written : Nat} {results : Nat → Fwrite}

theorem counted_append (ws vs : List Fwrite) : counted (ws ++ vs) = counted ws + counted vs := by
  induction ws with
  | nil => simp [counted]
  | cons w ws ih => simp only [List.cons_append, counted, ih, Nat.add_assoc]

theorem firstResults_succ (results : Nat → Fwrite) (k : Nat) :
    firstResults results (k + 1) = firstResults results k ++ [results k] := by
  induction k generalizing results with
  | zero => rfl
  | succ k ih => rw [firstResults, ih, firstResults, List.cons_append]

structure Going (logline : List UInt8) (written : Nat) (ws : List Fwrite) : Prop where
  short : written + counted ws < logline.length
  silent : ∀ w ∈ ws, w.n = 0 → w.ferror = false
  goesOn : ∀ vs, AppendFile.appendLoop logline (ws ++ vs) written (logline.take written) =
    AppendFile.appendLoop logline vs (written + counted ws) (logline.take (written + counted ws))
  clean : ∀ vs, StopsClean logline written (ws ++ vs) ↔ StopsClean logline (written + counted ws) vs
  bounded : ∀ vs, Bounded logline written (ws ++ vs) → Bounded logline (written + counted ws) vs

theorem appendLoop_going {e : String} (bounded : Bounded logline written ws)
    (le : written ≤ logline.length)
    (ran : AppendFile.appendLoop logline ws written (logline.take written) = .error e) :
    Going logline written ws := by
  induction ws generalizing written with
  | nil =>
    by_cases all : written = logline.length
    · simp [AppendFile.appendLoop, all] at ran
    · exact ⟨Nat.lt_of_le_of_ne le all, by simp, fun _ => rfl, fun _ => Iff.rfl, fun _ => id⟩
  | cons w ws ih =>
    by_cases all : written = logline.length
    · simp [AppendFile.appendLoop, all] at ran
    · obtain ⟨fits, rest⟩ := bounded all
      have taken : logline.take written ++ (logline.drop written).take w.n =
          logline.take (written + w.n) := by simp only [List.take_add]
      by_cases stops : w.n ≠ logline.length - written ∧ w.ferror
      · simp [AppendFile.appendLoop, if_neg all, stops] at ran
      · simp only [AppendFile.appendLoop, if_neg all, taken, if_neg stops] at ran
        obtain ⟨short, silent, goesOn, clean, bounds⟩ := ih (rest stops) (by omega) ran
        have sum : written + counted (w :: ws) = written + w.n + counted ws := by
          rw [counted, Nat.add_assoc]
        rw [← sum] at short goesOn clean bounds
        refine ⟨short, ?_, ?_, ?_, fun vs all' => bounds vs ((all' all).2 stops)⟩
        · intro v member zero
          rcases List.mem_cons.mp member with rfl | later
          · by_contra failed
            exact stops ⟨by omega, eq_true_of_ne_false failed⟩
          · exact silent v later zero
        · intro vs
          simp only [List.cons_append, AppendFile.appendLoop, if_neg all, taken, if_neg stops]
          exact goesOn vs
        · intro vs
          rw [← clean vs]
          simp only [List.cons_append, StopsClean, if_neg stops]
          exact ⟨fun clean => clean all, fun clean _ => clean⟩

theorem exists_largest {c : Nat → Nat} {m : Nat} (bound : ∀ k, c k < m) :
    ∃ k, ∀ j, c j ≤ c k := by
  by_contra endless
  have grows : ∀ n, ∃ k, n ≤ c k := by
    intro n
    induction n with
    | zero => exact ⟨0, Nat.zero_le _⟩
    | succ n ih =>
      obtain ⟨k, reached⟩ := ih
      by_contra stays
      apply endless
      exists k
      intro j
      by_contra more
      exact stays ⟨j, by omega⟩
  obtain ⟨k, reached⟩ := grows m
  have below := bound k
  omega

theorem appendLoop_ends (bounded : ∀ k, Bounded logline 0 (firstResults results k))
    (live : ¬∃ k, ∀ j, k ≤ j → (results j).n = 0 ∧ (results j).ferror = false) :
    ∃ k done, AppendFile.appendLoop logline (firstResults results k) 0 [] = .ok done := by
  by_contra endless
  have going : ∀ k, Going logline 0 (firstResults results k) := by
    intro k
    cases outcome : AppendFile.appendLoop logline (firstResults results k) 0 [] with
    | error e => exact appendLoop_going (bounded k) (Nat.zero_le _) outcome
    | ok done => exact absurd ⟨k, done, outcome⟩ endless
  have counts (k : Nat) : counted (firstResults results (k + 1)) =
      counted (firstResults results k) + (results k).n := by
    simp [firstResults_succ, counted_append, counted]
  obtain ⟨k, largest⟩ := exists_largest fun k => Nat.zero_add (counted _) ▸ (going k).short
  apply live
  exists k
  intro j later
  have grows : Monotone fun i => counted (firstResults results i) := by
    apply monotone_nat_of_le_succ
    intro i
    simp only [counts]
    omega
  have zero : (results j).n = 0 := by
    have before : counted (firstResults results k) ≤ counted (firstResults results j) :=
      grows later
    have after := largest (j + 1)
    have more := counts j
    omega
  exact ⟨zero, (going (j + 1)).silent _ (by simp [firstResults_succ]) zero⟩

structure Ended (logline : List UInt8) (ws : List Fwrite) (done : List UInt8 × Nat) : Prop where
  accepted : done.1 = logline.take (counted ws)
  whole : counted ws = logline.length ∨
    counted ws < logline.length ∧ ∃ w, ws.getLast? = some w ∧ w.ferror = true
  count : done.2 = counted ws ↔ StopsClean logline 0 ws

theorem ended_of_first {done : List UInt8 × Nat} {k : Nat}
    (bounded : ∀ k, Bounded logline 0 (firstResults results k))
    (earlier : ∀ j < k, ∃ e, AppendFile.appendLoop logline (firstResults results j) 0 [] = .error e)
    (ran : AppendFile.appendLoop logline (firstResults results k) 0 [] = .ok done) :
    Ended logline (firstResults results k) done := by
  cases k with
  | zero =>
    by_cases all : 0 = logline.length
    · simp only [firstResults, AppendFile.appendLoop, if_pos all, pure_eq_ok] at ran
      obtain rfl := Except.ok.inj ran
      exact ⟨rfl, .inl all, iff_of_true rfl trivial⟩
    · simp [firstResults, AppendFile.appendLoop, all] at ran
  | succ k =>
    obtain ⟨e, before⟩ := earlier k (Nat.lt_succ_self k)
    obtain ⟨short, -, goesOn, clean, bounds⟩ := appendLoop_going (bounded k) (Nat.zero_le _) before
    have last := bounds _ (firstResults_succ results k ▸ bounded (k + 1))
    rw [firstResults_succ] at ran ⊢
    have ran := (goesOn _).symm.trans ran
    have clean := clean [results k]
    have sum : counted (firstResults results k ++ [results k]) =
        counted (firstResults results k) + (results k).n := by
      simp [counted_append, counted]
    rw [Nat.zero_add] at short ran clean last
    generalize firstResults results k = ws at *
    generalize results k = w at *
    have more : counted ws ≠ logline.length := Nat.ne_of_lt short
    have fits := (last more).1
    simp only [AppendFile.appendLoop, if_neg more, ← List.take_add] at ran
    by_cases stops : w.n ≠ logline.length - counted ws ∧ w.ferror
    · simp only [if_pos stops, pure_eq_ok] at ran
      obtain rfl := Except.ok.inj ran
      refine ⟨by rw [sum], .inr ⟨by omega, w, by simp, stops.2⟩, ?_⟩
      rw [clean, sum]
      simp only [StopsClean, if_pos stops]
      exact ⟨fun none_ _ => by omega, fun none_ => by have := none_ more; omega⟩
    · simp only [if_neg stops] at ran
      by_cases all : counted ws + w.n = logline.length
      · simp only [if_pos all, pure_eq_ok] at ran
        obtain rfl := Except.ok.inj ran
        refine ⟨by rw [sum], .inl (sum.trans all), iff_of_true sum.symm ?_⟩
        rw [clean]
        simp [StopsClean, stops]
      · simp [all] at ran

/-- append ends. The bytes that its calls of fwrite accepted are a front part of the line, and
    all of it unless the last call set the error flag. It counts them exactly when a call that
    it stopped at on an error accepted nothing. -/
theorem append_accounts (f : AppendFile) (logline : List UInt8) (results : Nat → Fwrite)
    (bounded : ∀ k, Bounded logline 0 (firstResults results k))
    (live : ¬∃ k, ∀ j, k ≤ j → (results j).n = 0 ∧ (results j).ferror = false) :
    ∃ k f', f.append logline (firstResults results k) = .ok f' ∧
      (∀ j < k, ∃ e, f.append logline (firstResults results j) = .error e) ∧
      f'.accepted = f.accepted ++ logline.take (counted (firstResults results k)) ∧
      (counted (firstResults results k) = logline.length ∨
        counted (firstResults results k) < logline.length ∧
          ∃ w, (firstResults results k).getLast? = some w ∧ w.ferror = true) ∧
      (f'.writtenBytes_ = f.writtenBytes_ + counted (firstResults results k) ↔
        StopsClean logline 0 (firstResults results k)) := by
  classical
  have ends := appendLoop_ends bounded live
  obtain ⟨done, ran⟩ := Nat.find_spec ends
  have earlier : ∀ j < Nat.find ends,
      ∃ e, AppendFile.appendLoop logline (firstResults results j) 0 [] = .error e := by
    intro j before
    cases outcome : AppendFile.appendLoop logline (firstResults results j) 0 [] with
    | error e => exact ⟨e, rfl⟩
    | ok done => exact absurd ⟨done, outcome⟩ (Nat.find_min ends before)
  obtain ⟨accepted, whole, count⟩ := ended_of_first bounded earlier ran
  refine ⟨Nat.find ends, _, by rw [AppendFile.append, ran]; rfl, ?_, by rw [accepted], whole, ?_⟩
  · intro j before
    obtain ⟨e, failed⟩ := earlier j before
    exact ⟨e, by rw [AppendFile.append, failed]; rfl⟩
  · rw [← count]
    exact Nat.add_left_cancel_iff

end

def shortThenWhole (i : Nat) : Fwrite := if i = 0 then ⟨1, false⟩ else ⟨2, false⟩

theorem append_accounts_of_short :
    ∃ k f', AppendFile.append ⟨[], [], 0, 0⟩ [1, 2, 3] (firstResults shortThenWhole k) = .ok f' ∧
      f'.accepted = List.take (counted (firstResults shortThenWhole k)) [1, 2, 3] ∧
      (counted (firstResults shortThenWhole k) = 3 ∨
        counted (firstResults shortThenWhole k) < 3 ∧
          ∃ w, (firstResults shortThenWhole k).getLast? = some w ∧ w.ferror = true) ∧
      (f'.writtenBytes_ = 0 + counted (firstResults shortThenWhole k) ↔
        StopsClean [1, 2, 3] 0 (firstResults shortThenWhole k)) := by
  have bounded : ∀ k, Bounded [1, 2, 3] 0 (firstResults shortThenWhole k) := by
    intro k
    match k with
    | 0 => exact trivial
    | 1 => simp [firstResults, Bounded, shortThenWhole]
    | k + 2 =>
      cases k with
      | zero => simp [firstResults, Bounded, shortThenWhole]
      | succ k => simp [firstResults, Bounded, shortThenWhole]
  have live : ¬∃ k, ∀ j, k ≤ j →
      (shortThenWhole j).n = 0 ∧ (shortThenWhole j).ferror = false := by
    intro ⟨k, silent⟩
    have zero := (silent (k + 1) (Nat.le_succ k)).1
    simp [shortThenWhole] at zero
  obtain ⟨k, f', ran, -, result⟩ :=
    append_accounts ⟨[], [], 0, 0⟩ [1, 2, 3] shortThenWhole bounded live
  exact ⟨k, f', ran, result⟩

/-- The first fwrite accepts one byte of three and fails. -/
theorem append_loses_count :
    Bounded [1, 2, 3] 0 [⟨1, true⟩] ∧
      AppendFile.append ⟨[], [], 0, 0⟩ [1, 2, 3] [⟨1, true⟩] = .ok ⟨[], [1], 0, 0⟩ := by
  constructor
  · simp [Bounded]
  · rfl

end FileUtil
end Muduo
