import Muduo.Net.ZlibStream

/-!
What a ZlibOutputStream fed to deflate and what it said it consumed, over all sequences of calls.
A call adds bytes to each of the two, and output_ gains what deflate stored if each space that
was offered fits a uInt. Two kinds of calls add other bytes than they say: finish, when a Buffer
was not consumed to its end, and a write of a string that fails after some of it was taken. A
write of a string after one of a Buffer fails its assertion, as next_in was not cleared.
-/
namespace Muduo
open Lib
namespace ZlibOutputStream
open ZError

/-- The books: nothing was fed but what was said to be consumed, and output_ has gained
    what deflate stored. -/
structure Exact (initial : List UInt8) (s : Stream) : Prop where
  running : s.failed = none
  consumed : s.fed = s.claimed
  gained : s.drained ++ s.output_.readable = initial ++ s.produced

structure Inv (s : Stream) : Prop extends Sized s where
  whole : s.avail_in = s.input.length

section
variable {s t : Stream} {n : Nat} {fits : Prop} {initial taken said : List UInt8}

theorem Added.exact_iff (added : Added s t taken said fits) (before : Exact initial s) :
    Exact initial t ↔ taken = said ∧ fits := by
  constructor
  · intro after
    constructor
    · have consumed := after.consumed
      rw [added.fed, added.claimed, before.consumed] at consumed
      exact List.append_cancel_left consumed
    · by_contra no
      have more := added.excess no
      have gained := congrArg List.length before.gained
      have gained' := congrArg List.length after.gained
      simp only [List.length_append, added.drained] at gained gained'
      omega
  · intro ⟨same, fit⟩
    obtain ⟨more, readable, produced⟩ := added.exact fit
    constructor
    · exact added.failed.trans before.running
    · rw [added.fed, added.claimed, before.consumed, same]
    · rw [added.drained, readable, produced, ← List.append_assoc, before.gained, List.append_assoc]

theorem Moved.whole (moved : Moved s t n fits) (whole : s.avail_in = s.input.length) :
    t.avail_in = t.input.length := by
  have sum := moved.avail_in
  rw [moved.input, List.length_drop]
  omega

end

/-! ### The calls -/

/-- A call of deflate that fails in a write of `len` bytes has taken nothing, and neither has
    any call before it. -/
def FailsUntaken (len : Nat) (replies : List Reply) : Prop :=
  ∀ before r after, replies = before ++ r :: after → (∀ q ∈ before, q.error = Z_OK) →
    total before < len → r.error ≠ Z_OK → total (before ++ [r]) = 0

/-- The calls of deflate up to the first one that does not return Z_OK take nothing. -/
def TakesNothing (replies : List Reply) : Prop :=
  ∀ before r after, replies = before ++ r :: after → (∀ q ∈ before, q.error = Z_OK) →
    r.consumed = 0

/-- The condition on a call. A write of a string finds next_in null, and deflate does not fail in
    it after it has taken bytes. A Buffer has less than 2 ^ 32 bytes. finish finds avail_in zero,
    or deflate takes nothing in it. The space that is offered first has less than 2 ^ 32 bytes. -/
def Allowed (s : Stream) : Call → Prop
  | .writePiece buf replies => s.zerror_ = Z_OK →
      s.next_in = none ∧ FailsUntaken buf.bytes.length replies ∧
        (0 < buf.bytes.length → space s < 2 ^ 32)
  | .writeBuffer input _ => s.zerror_ = Z_OK →
      input.buffer.readableBytes < 2 ^ 32 ∧ (0 < input.buffer.readableBytes → space s < 2 ^ 32)
  | .finish replies _ => s.zerror_ = Z_OK →
      (s.avail_in = 0 ∨ TakesNothing replies) ∧ space s < 2 ^ 32
  | .drain _ => True

theorem ahead_of_failure {used unused before after : List Reply} {r : Reply}
    (failed : ∃ first last, used = first ++ [last] ∧ last.error ≠ Z_OK)
    (same : used ++ unused = before ++ r :: after) (fine : ∀ q ∈ before, q.error = Z_OK) :
    before ++ [r] <+: used := by
  obtain ⟨first, last, rfl, bad⟩ := failed
  have ahead : before ++ [r] <+: first ++ [last] ++ unused := ⟨after, by simp [same]⟩
  refine List.prefix_of_prefix_length_le ahead (List.prefix_append _ _) ?_
  by_contra longer
  simp only [List.length_append, List.length_singleton] at longer
  have shorter : first ++ [last] <+: before := by
    refine List.prefix_of_prefix_length_le (List.prefix_append _ unused) ?_ ?_
    · rw [same]
      exact List.prefix_append _ _
    · simp only [List.length_append, List.length_singleton]
      omega
  exact bad (fine last (shorter.subset (by simp)))

section
variable {s t : Stream} {initial : List UInt8} {l : Call} {fits : Prop}

theorem Looped.failsUntaken {used : List Reply} (looped : Looped writing s used t)
    (unused : List Reply) (sized : Sized s) (ok : s.zerror_ = Z_OK) :
    (t.zerror_ = Z_OK → s.avail_in ≤ total used ∧ FailsUntaken s.avail_in (used ++ unused)) ∧
      (t.zerror_ ≠ Z_OK → 0 < s.avail_in ∧
        (total used = 0 ↔ FailsUntaken s.avail_in (used ++ unused))) := by
  have needs : ∀ a e, writing a e = true → e = Z_OK := by
    intro a e on
    simp only [writing, decide_eq_true_eq] at on
    exact on.2
  have last := looped.last sized needs
  constructor
  · intro fine
    have all : s.avail_in ≤ total used := by
      obtain ⟨fits, moved, -⟩ := looped.moved sized
      have stop := looped.stop
      simp only [writing, fine, and_true, decide_eq_false_iff_not] at stop
      have sum := moved.avail_in
      omega
    refine ⟨all, ?_⟩
    intro before r after same good few bad
    have used_good : ∀ q ∈ used, q.error = Z_OK := by
      rcases last with ⟨rfl, -⟩ | ⟨first, q, rfl, first_good, error, -⟩
      · simp
      · intro x member
        rcases List.mem_append.mp member with early | late
        · exact first_good x early
        · obtain rfl := List.mem_singleton.mp late
          exact error ▸ fine
    exfalso
    rcases Nat.lt_or_ge before.length used.length with shorter | longer
    · have ahead : before ++ [r] <+: used := by
        refine List.prefix_of_prefix_length_le ⟨after, ?_⟩ (List.prefix_append used unused) ?_
        · simp [same]
        · rw [List.length_append, List.length_singleton]
          exact shorter
      exact bad (used_good r (ahead.subset (by simp)))
    · have ahead : used <+: before :=
        List.prefix_of_prefix_length_le ⟨unused, same⟩ (List.prefix_append _ _) longer
      have less := total_mono ahead
      omega
  · intro bad
    rcases last with ⟨-, rfl⟩ | ⟨first, q, rfl, good, error, went⟩
    · exact absurd ok bad
    · have few : total first < s.avail_in := by
        simp only [writing, and_true, decide_eq_true_eq] at went
        omega
      refine ⟨by omega, ?_, ?_⟩
      · intro none_ before r after same fine _ _
        have ahead := ahead_of_failure ⟨first, q, rfl, error ▸ bad⟩ same fine
        have less := total_mono ahead
        omega
      · intro untaken
        exact untaken first q unused (by simp) good few (error ▸ bad)

theorem Looped.takesNothing {used : List Reply} (looped : Looped finishing s used t)
    (unused : List Reply) (sized : Sized s) (ok : s.zerror_ = Z_OK) :
    used ≠ [] ∧ (total used = 0 ↔ TakesNothing (used ++ unused)) := by
  have bad : t.zerror_ ≠ Z_OK := by
    have stop := looped.stop
    simpa [finishing] using stop
  have needs : ∀ a e, finishing a e = true → e = Z_OK := by
    intro a e on
    simpa [finishing] using on
  rcases looped.last sized needs with ⟨-, rfl⟩ | ⟨first, q, rfl, good, error, -⟩
  · exact absurd ok bad
  · refine ⟨by simp, ?_, ?_⟩
    · intro none_ before r after same fine
      have ahead := ahead_of_failure ⟨first, q, rfl, error ▸ bad⟩ same fine
      exact total_eq_zero.mp none_ r (ahead.subset (by simp))
    · intro nothing
      refine total_eq_zero.mpr fun r there => ?_
      obtain ⟨before, after, split⟩ := List.append_of_mem there
      refine nothing before r (after ++ unused) (by rw [split]; simp) ?_
      intro x early
      have ahead : before <+: first := by
        refine List.prefix_of_prefix_length_le ⟨r :: after, split.symm⟩ (List.prefix_append _ _) ?_
        have lengths := congrArg List.length split
        simp only [List.length_append, List.length_cons, List.length_nil] at lengths
        omega
      exact good x (ahead.subset early)

theorem Added.claiming {taken more : List UInt8} (added : Added s t taken [] fits) :
    Added s { t with claimed := t.claimed ++ more } taken more fits :=
  { added with
    claimed := by
      dsimp only
      rw [added.claimed, List.append_nil] }

theorem Moved.added_reading {n avail_in : Nat} {next_in : Option (List UInt8)}
    (moved : Moved { s with next_in := next_in, avail_in := avail_in } t n fits) :
    Added s t ((next_in.getD []).take n) [] fits :=
  { moved.toAdded with }

theorem writePiece_spec (inv : Inv s) (ok : s.zerror_ = Z_OK) (free : s.next_in = none)
    (buf : StringPiece) (replies : List Reply) :
    writePiece s buf replies = .ok none ∨
    ∃ t n fits, writePiece s buf replies = .ok (some (t, decide (t.zerror_ = Z_OK))) ∧
      Added s t (buf.bytes.take n) [] fits ∧ Inv t ∧ (Roomy s → fits) ∧
      (0 < buf.bytes.length → fits → space s < 2 ^ 32) ∧
      (t.zerror_ = Z_OK → n = buf.bytes.length ∧ FailsUntaken buf.bytes.length replies ∧
        t.next_in = none) ∧
      (t.zerror_ ≠ Z_OK →
        (buf.bytes.take n = [] ↔ FailsUntaken buf.bytes.length replies)) := by
  have idle : s.avail_in = 0 := by
    rw [inv.whole, Stream.input, free]
    rfl
  have sized : Sized { s with next_in := buf.data, avail_in := buf.bytes.length } :=
    ⟨inv.valid, inv.size⟩
  obtain ⟨result, ran, spec⟩ := loop_looped writing sized replies
  unfold writePiece
  rw [if_neg (not_not.mpr ok), assertThat_of_true ⟨free, idle⟩, ok_bind, ran, ok_bind]
  cases result with
  | none => exact Or.inl rfl
  | some u =>
    apply Or.inr
    obtain ⟨used, unused, rfl, looped⟩ := spec u rfl
    obtain ⟨fits, moved, sized', roomy, first⟩ := looped.moved sized
    obtain ⟨whole_, failed⟩ := looped.failsUntaken unused sized ok
    have sum : u.avail_in + min (total used) buf.bytes.length = buf.bytes.length := moved.avail_in
    have whole := moved.whole rfl
    have begun : 0 < buf.bytes.length → fits → space s < 2 ^ 32 := by
      intro some fit
      refine first ?_ fit
      rintro rfl
      cases looped with
      | done stop => simp [writing, some, ok] at stop
    have ends : u.zerror_ = Z_OK → min (total used) buf.bytes.length = buf.bytes.length ∧
        FailsUntaken buf.bytes.length (used ++ unused) := by
      intro fine
      obtain ⟨all, untaken⟩ := whole_ fine
      exact ⟨Nat.min_eq_right all, untaken⟩
    have fails : u.zerror_ ≠ Z_OK → (buf.bytes.take (min (total used) buf.bytes.length) = [] ↔
        FailsUntaken buf.bytes.length (used ++ unused)) := by
      intro bad
      obtain ⟨some, untaken⟩ := failed bad
      rw [← untaken, ← List.length_eq_zero_iff, List.length_take]
      have some : 0 < buf.bytes.length := some
      omega
    dsimp only
    by_cases last : u.avail_in = 0
    · have at_end : u.next_in = buf.data.map fun _ => [] := by
        rw [moved.next_in]
        cases given : buf.data with
        | none => rfl
        | some bytes =>
          have length : bytes.length ≤ min (total used) buf.bytes.length := by
            simp only [StringPiece.bytes, given, Option.getD_some] at sum ⊢
            omega
          simp only [Option.map_some, Option.some.injEq, List.drop_eq_nil_iff]
          exact length
      refine ⟨{ u with next_in := none }, _, fits, ?_, { moved.added_reading with },
        ⟨⟨sized'.valid, sized'.size⟩, last⟩, roomy, begun,
        fun fine => ⟨(ends fine).1, (ends fine).2, rfl⟩, fails⟩
      rw [if_pos last, assertThat_of_true at_end, ok_bind, pure_eq_ok]
    · refine ⟨u, _, fits, ?_, moved.added_reading, ⟨sized', whole⟩, roomy, begun, ?_, fails⟩
      · rw [if_neg last, pure_eq_ok]
      · intro fine
        have all := (ends fine).1
        omega

theorem writeBuffer_spec (inv : Inv s) (ok : s.zerror_ = Z_OK) {input : Buffer}
    (valid : input.Valid) (r : Reply) :
    ∃ t rest n, writeBuffer s input r = .ok (t, rest, decide (t.zerror_ = Z_OK)) ∧
      Added s t (input.readable.take n) []
        (0 < uInt input.readableBytes → space s < 2 ^ 32) ∧ Sized t ∧
      (Roomy s → space s < 2 ^ 32) ∧ t.next_in ≠ none ∧
      n ≤ uInt input.readableBytes ∧
      input.readableBytes - rest.readableBytes + uInt input.readableBytes =
        input.readableBytes + n ∧
      (input.readableBytes < 2 ^ 32 → t.avail_in = t.input.length) := by
  have length := Buffer.readable_length valid
  have small : uInt input.readableBytes ≤ input.readableBytes := by
    rw [uInt_eq]
    exact Nat.mod_le _ _
  have exact_size : input.readableBytes < 2 ^ 32 → uInt input.readableBytes = input.readableBytes := by
    intro fits
    rw [uInt_eq, Nat.mod_eq_of_lt fits]
  unfold writeBuffer
  rw [if_neg (not_not.mpr ok)]
  generalize uInt input.readableBytes = avail_in at small exact_size ⊢
  obtain ⟨t, n, ran, moved, sized, roomy⟩ := offer_spec
    (s := { s with next_in := some input.readable, avail_in := avail_in })
    ⟨inv.valid, inv.size⟩ ok r
  have sum : t.avail_in + n = avail_in := moved.avail_in
  obtain ⟨rest, taken, valid', left⟩ := Buffer.retrieve_spec valid
    (by omega : input.readableBytes - t.avail_in ≤ input.readableBytes)
  have length' := Buffer.readable_length valid'
  rw [left, List.length_drop, length] at length'
  refine ⟨t, rest, n, ?_, moved.added_reading, sized, roomy, ?_, by omega, by omega, ?_⟩
  · rw [ran, ok_bind, taken, ok_bind, pure_eq_ok]
  · rw [moved.next_in]
    nofun
  · intro fits
    apply moved.whole
    dsimp only [Stream.input, Option.getD_some]
    rw [length, exact_size fits]

theorem finish_spec (inv : Inv s) (ok : s.zerror_ = Z_OK) (replies : List Reply)
    (ended : ZError) :
    finish s replies ended = .ok none ∨
    ∃ t n fits, finish s replies ended = .ok (some (t, decide (ended = Z_OK))) ∧
      Added s t (s.input.take n) [] fits ∧ Inv t ∧ (Roomy s → fits) ∧ (fits → space s < 2 ^ 32) ∧
      (s.input.take n = [] ↔ s.avail_in = 0 ∨ TakesNothing replies) ∧
      t.zerror_ = Z_STREAM_END := by
  obtain ⟨result, ran, spec⟩ := loop_looped finishing inv.toSized replies
  unfold finish
  rw [if_neg (not_not.mpr ok), ran, ok_bind]
  cases result with
  | none => exact Or.inl rfl
  | some u =>
    apply Or.inr
    obtain ⟨used, unused, rfl, looped⟩ := spec u rfl
    obtain ⟨fits, moved, sized, roomy, first⟩ := looped.moved inv.toSized
    obtain ⟨some, nothing⟩ := looped.takesNothing unused inv.toSized ok
    refine ⟨{ u with zerror_ := Z_STREAM_END }, _, fits, rfl, { moved.toAdded with },
      ⟨⟨sized.valid, sized.size⟩, moved.whole inv.whole⟩, roomy, first some, ?_, rfl⟩
    rw [← nothing, ← List.length_eq_zero_iff, List.length_take, ← inv.whole]
    omega

/-! ### Steps -/

theorem call_of_error (error : s.zerror_ ≠ Z_OK) :
    (∀ buf replies, call s (.writePiece buf replies) = .ok (some s)) ∧
    (∀ input r, call s (.writeBuffer input r) = .ok (some s)) ∧
    (∀ replies ended, call s (.finish replies ended) = .ok (some s)) := by
  refine ⟨?_, ?_, ?_⟩
  · intro buf replies
    simp only [call, writePiece, if_pos error, pure_eq_ok, ok_bind]
  · intro input r
    simp only [call, writeBuffer, if_pos error, pure_eq_ok, ok_bind, Nat.sub_self, List.take_zero,
      List.append_nil]
  · intro replies ended
    simp only [call, finish, if_pos error, pure_eq_ok, ok_bind]

theorem step_call (stepped : machine.step s l = some t) :
    call s l = .ok (some t) ∨ ∃ e, call s l = .error e ∧ t = { s with failed := some e } := by
  have taken := (faults.step_cases stepped).2
  simpa only [returned_eq_ok, returned_eq_error, faults] using taken

structure Decides (initial : List UInt8) (s : Stream) (l : Call) (t : Stream) : Prop where
  needs : Exact initial t → Allowed s l
  keeps : Allowed s l → Inv t ∧ (Roomy s → Exact initial t)
  error : t.failed = none → t.zerror_ = Z_OK → s.zerror_ = Z_OK ∧
    (t.next_in = none ↔ s.next_in = none ∧ ∀ input r, l ≠ .writeBuffer input r)

theorem step_of_called {u : Stream} (called : call s l = .ok (some u))
    (stepped : machine.step s l = some t) : t = u := by
  rcases step_call stepped with same | ⟨e, same, -⟩ <;> rw [called] at same <;> cases same
  rfl

theorem step_of_unended (called : call s l = .ok none) : machine.step s l ≠ some t := by
  intro stepped
  rcases step_call stepped with same | ⟨e, same, -⟩ <;> rw [called] at same <;> cases same

theorem decides_of_error (inv : Inv s) (before : Exact initial s) (error : s.zerror_ ≠ Z_OK)
    (vacuous : Allowed s l) (called : call s l = .ok (some s))
    (stepped : machine.step s l = some t) : Decides initial s l t := by
  obtain rfl := step_of_called called stepped
  exact ⟨fun _ => vacuous, fun _ => ⟨inv, fun _ => before⟩, fun _ ok => absurd ok error⟩

theorem decides_of_added {taken said : List UInt8} (before : Exact initial s)
    (added : Added s t taken said fits) (needs : taken = said → fits → Allowed s l)
    (keeps : Allowed s l → Inv t ∧ taken = said ∧ (Roomy s → fits))
    (error : t.zerror_ = Z_OK → s.zerror_ = Z_OK ∧
      (t.next_in = none ↔ s.next_in = none ∧ ∀ input r, l ≠ .writeBuffer input r)) :
    Decides initial s l t := by
  have exact_iff := added.exact_iff before
  refine ⟨?_, ?_, fun _ => error⟩
  · intro after
    obtain ⟨same, fit⟩ := exact_iff.mp after
    exact needs same fit
  · intro allowed
    obtain ⟨inv, same, roomy⟩ := keeps allowed
    exact ⟨inv, fun room => exact_iff.mpr ⟨same, roomy room⟩⟩

theorem writePiece_decides (inv : Inv s) (before : Exact initial s) {buf : StringPiece}
    {replies : List Reply} (stepped : machine.step s (.writePiece buf replies) = some t) :
    Decides initial s (.writePiece buf replies) t := by
  by_cases ok : s.zerror_ = Z_OK
  · by_cases free : s.next_in = none
    · rcases writePiece_spec inv ok free buf replies with
        unended | ⟨u, n, fits, ran, added, inv', roomy, first, whole, failed⟩
      · exact absurd stepped (step_of_unended (by simp only [call, unended, ok_bind, pure_eq_ok]))
      · by_cases fine : u.zerror_ = Z_OK
        · obtain ⟨all, untaken, null⟩ := whole fine
          have called : call s (.writePiece buf replies) =
              .ok (some { u with claimed := u.claimed ++ buf.bytes }) := by
            simp only [call, ran, fine, decide_true, ok_bind, pure_eq_ok]
          obtain rfl := step_of_called called stepped
          refine decides_of_added before added.claiming ?_ ?_ fun _ => ⟨ok, by simp [null, free]⟩
          · intro _ fit _
            exact ⟨free, untaken, fun some => first some fit⟩
          · intro _
            exact ⟨⟨⟨inv'.valid, inv'.size⟩, inv'.whole⟩, by rw [all, List.take_length], roomy⟩
        · have called : call s (.writePiece buf replies) = .ok (some u) := by
            simp only [call, ran, fine, decide_false, ok_bind, pure_eq_ok]
          obtain rfl := step_of_called called stepped
          refine decides_of_added before added ?_ ?_ fun good => absurd good fine
          · intro none_ fit _
            exact ⟨free, (failed fine).mp none_, fun some => first some fit⟩
          · intro allowed
            exact ⟨inv', (failed fine).mpr (allowed ok).2.1, roomy⟩
    · have called : call s (.writePiece buf replies) =
          .error "zstream_.next_in == NULL && zstream_.avail_in == 0" := by
        have busy : ¬(s.next_in = none ∧ s.avail_in = 0) := fun idle => free idle.1
        simp only [call, writePiece, if_neg (not_not.mpr ok), assertThat_of_false busy, error_bind]
      rcases step_call stepped with same | ⟨e, -, rfl⟩
      · rw [called] at same
        cases same
      · refine ⟨?_, fun allowed => absurd (allowed ok).1 free,
          fun fine => absurd fine (Option.some_ne_none e)⟩
        intro after
        cases after.running
  · exact decides_of_error inv before ok (fun h => absurd h ok) ((call_of_error ok).1 buf replies)
      stepped

theorem writeBuffer_decides (inv : Inv s) (before : Exact initial s) {input : Input} {r : Reply}
    (stepped : machine.step s (.writeBuffer input r) = some t) :
    Decides initial s (.writeBuffer input r) t := by
  by_cases ok : s.zerror_ = Z_OK
  · obtain ⟨u, rest, n, ran, added, sized, roomy, held, bound, gone, whole⟩ :=
      writeBuffer_spec inv ok input.valid r
    have called : call s (.writeBuffer input r) = .ok (some { u with
        claimed := u.claimed ++ input.buffer.readable.take
          (input.buffer.readableBytes - rest.readableBytes) }) := by
      simp only [call, ran, ok_bind, pure_eq_ok]
    obtain rfl := step_of_called called stepped
    have length := Buffer.readable_length input.valid
    rw [uInt_eq] at bound gone added
    refine decides_of_added before added.claiming ?_ ?_ fun _ => ⟨ok, iff_of_false held ?_⟩
    · intro same first _
      have lengths := congrArg List.length same
      simp only [List.length_take, length] at lengths
      have fits : input.buffer.readableBytes < 2 ^ 32 := by
        by_contra large
        omega
      rw [Nat.mod_eq_of_lt fits] at first
      exact ⟨fits, first⟩
    · intro allowed
      have fits := (allowed ok).1
      rw [Nat.mod_eq_of_lt fits] at gone
      refine ⟨⟨⟨sized.valid, sized.size⟩, whole fits⟩, ?_, fun room _ => roomy room⟩
      rw [show input.buffer.readableBytes - rest.readableBytes = n by omega]
    · rintro ⟨-, other⟩
      exact other input r rfl
  · exact decides_of_error inv before ok (fun h => absurd h ok) ((call_of_error ok).2.1 input r)
      stepped

theorem finish_decides (inv : Inv s) (before : Exact initial s) {replies : List Reply}
    {ended : ZError} (stepped : machine.step s (.finish replies ended) = some t) :
    Decides initial s (.finish replies ended) t := by
  by_cases ok : s.zerror_ = Z_OK
  · rcases finish_spec inv ok replies ended with
      unended | ⟨u, n, fits, ran, added, inv', roomy, first, nothing, end_⟩
    · exact absurd stepped (step_of_unended (by simp only [call, unended, ok_bind, pure_eq_ok]))
    · have called : call s (.finish replies ended) = .ok (some u) := by
        simp only [call, ran, ok_bind, pure_eq_ok]
      obtain rfl := step_of_called called stepped
      refine decides_of_added before added ?_ ?_ ?_
      · intro none_ fit _
        exact ⟨nothing.mp none_, first fit⟩
      · intro allowed
        exact ⟨inv', nothing.mpr (allowed ok).1, roomy⟩
      · intro good
        rw [end_] at good
        cases good
  · exact decides_of_error inv before ok (fun h => absurd h ok) ((call_of_error ok).2.2 replies ended)
      stepped

theorem drain_decides (inv : Inv s) (before : Exact initial s) {len : Nat}
    (stepped : machine.step s (.drain len) = some t) : Decides initial s (.drain len) t := by
  by_cases enough : len ≤ s.output_.readableBytes
  · obtain ⟨out, ran, valid, left⟩ := Buffer.retrieve_spec inv.valid enough
    have called : call s (.drain len) = .ok (some { s with
        output_ := out, drained := s.drained ++ s.output_.readable.take len }) := by
      simp only [call, if_pos enough, ran, ok_bind, pure_eq_ok]
    obtain rfl := step_of_called called stepped
    have gained : s.drained ++ s.output_.readable.take len ++ out.readable =
        initial ++ s.produced := by
      rw [left, List.append_assoc, List.take_append_drop, before.gained]
    exact ⟨fun _ => trivial, fun _ => ⟨⟨⟨valid, inv.size⟩, inv.whole⟩,
      fun _ => ⟨before.running, before.consumed, gained⟩⟩, fun _ ok => ⟨ok, by simp⟩⟩
  · exact absurd stepped (step_of_unended (by simp only [call, if_neg enough, pure_eq_ok]))

theorem step_decides (inv : Inv s) (before : Exact initial s)
    (stepped : machine.step s l = some t) : Decides initial s l t := by
  cases l with
  | writePiece buf replies => exact writePiece_decides inv before stepped
  | writeBuffer input r => exact writeBuffer_decides inv before stepped
  | finish replies ended => exact finish_decides inv before stepped
  | drain len => exact drain_decides inv before stepped

end

theorem next_in_run {initial : List UInt8} {s t : Stream} {calls : List Call} (inv : Inv s)
    (always : machine.Always (Exact initial) s calls) (ran : machine.run s calls = some t)
    (ok : t.zerror_ = Z_OK) : s.zerror_ = Z_OK ∧
      (t.next_in = none ↔ s.next_in = none ∧ ∀ input r, .writeBuffer input r ∉ calls) := by
  induction calls generalizing s with
  | nil =>
    cases ran
    exact ⟨ok, by simp⟩
  | cons l calls ih =>
    obtain ⟨u, stepped, rest⟩ := (machine.run_cons_eq_some).mp ran
    have later := always.2 u stepped
    have after := machine.always_start later
    have decides := step_decides inv always.1 stepped
    obtain ⟨ok', next⟩ := ih (decides.keeps (decides.needs after)).1 later rest
    obtain ⟨ok'', before⟩ := decides.error after.running ok'
    refine ⟨ok'', ?_⟩
    rw [next, before, and_assoc]
    simp only [List.mem_cons, not_or, ← forall_and, ne_eq, eq_comm]

/-- Over every sequence of calls and whatever deflate replies, the books are right in every state
    only if every call meets its condition, and if so as long as the bytes of output_ that are
    not readable fit a uInt. Then a string finds next_in null when no Buffer was written. -/
theorem consumes_what_it_claims (output : Buffer) (valid : output.Valid) (zerror : ZError)
    (calls : List Call) (t : Stream) (ran : machine.run (new output zerror) calls = some t) :
    (machine.Always (Exact output.readable) (new output zerror) calls →
        machine.Within Allowed (new output zerror) calls ∧
          (t.zerror_ = Z_OK → (t.next_in = none ↔ ∀ input r, .writeBuffer input r ∉ calls))) ∧
      (machine.Within Allowed (new output zerror) calls →
        machine.Within (fun s _ => Roomy s) (new output zerror) calls →
        machine.Always (Exact output.readable) (new output zerror) calls) := by
  have first : Exact output.readable (new output zerror) := by
    constructor
    · rfl
    · rfl
    · simp [new]
  have start : Inv (new output zerror) := ⟨⟨valid, by simp [new]⟩, rfl⟩
  constructor
  · intro always
    constructor
    · refine (machine.within_of_escape (fun _ _ => True) Allowed Inv (Exact output.readable)
        (fun _ => False) ?_ start always (machine.within_all _ _) ran id).2
      intro s l u inv before after _ stepped
      have decides := step_decides inv before stepped
      have allowed := decides.needs after
      exact ⟨(decides.keeps allowed).1, fun no => no.elim id fun refused => refused allowed⟩
    · intro ok
      have null := (next_in_run start always ran ok).2
      simpa [new] using null
  · intro within roomy
    refine (machine.always_iff_within_given (fun s _ => Roomy s) Allowed Inv
      (Exact output.readable) ?_ ?_ start first roomy ran).mpr within
    · intro s l u inv before room allowed stepped
      obtain ⟨inv', exact_⟩ := (step_decides inv before stepped).keeps allowed
      exact ⟨inv', exact_ room⟩
    · intro s l u inv before _ refused stepped after
      exact refused ((step_decides inv before stepped).needs after)

def smallOutput : Buffer := ⟨List.replicate 16 0, 8, 8⟩

theorem smallOutput_valid : smallOutput.Valid := ⟨by decide, by decide, by decide⟩

def threeBytes : StringPiece := ⟨some [1, 2, 3], by decide⟩

def twoBytes : Input := ⟨⟨List.replicate 8 0 ++ [4, 5], 8, 10⟩, ⟨by decide, by decide, by decide⟩⟩

def wholeCalls : List Call :=
  [.writePiece threeBytes [⟨2, [9], Z_OK⟩, ⟨5, [], Z_OK⟩],
   .writeBuffer twoBytes ⟨2, [8], Z_OK⟩,
   .drain 1,
   .finish [⟨0, [7, 6], Z_OK⟩, ⟨0, [5], Z_STREAM_END⟩] Z_OK]

def Smooth (s : Stream) : Call → Prop
  | .writePiece _ replies => s.next_in = none ∧ (∀ r ∈ replies, r.error = Z_OK) ∧ space s < 2 ^ 32
  | .writeBuffer input _ => input.buffer.readableBytes < 2 ^ 32 ∧ space s < 2 ^ 32
  | .finish _ _ => s.avail_in = 0 ∧ space s < 2 ^ 32
  | .drain _ => True

instance (s : Stream) : (l : Call) → Decidable (Smooth s l)
  | .writePiece _ replies =>
    inferInstanceAs (Decidable (_ ∧ (∀ r ∈ replies, r.error = Z_OK) ∧ _))
  | .writeBuffer _ _ => inferInstanceAs (Decidable (_ ∧ _))
  | .finish _ _ => inferInstanceAs (Decidable (_ ∧ _))
  | .drain _ => inferInstanceAs (Decidable True)

theorem Smooth.allowed {s : Stream} {l : Call} (smooth : Smooth s l) : Allowed s l := by
  cases l with
  | writePiece buf replies =>
    obtain ⟨null, fine, room⟩ := smooth
    refine fun _ => ⟨null, ?_, fun _ => room⟩
    rintro before r after rfl _ _ bad
    exact absurd (fine r (by simp)) bad
  | writeBuffer input r => exact fun _ => ⟨smooth.1, fun _ => smooth.2⟩
  | finish replies ended => exact fun _ => ⟨Or.inl smooth.1, smooth.2⟩
  | drain len => trivial

theorem consumes_what_it_claims_of_whole : ∃ t,
    machine.run (new smallOutput Z_OK) wholeCalls = some t ∧
    machine.Always (Exact []) (new smallOutput Z_OK) wholeCalls ∧
    t.fed = [1, 2, 3, 4, 5] ∧ t.output_.readable = [8, 7, 6, 5] := by
  have shown : (machine.run (new smallOutput Z_OK) wholeCalls).map
      (fun t => (t.fed, t.output_.readable)) = some ([1, 2, 3, 4, 5], [8, 7, 6, 5]) := by
    decide +kernel
  obtain ⟨t, ran, result⟩ := Option.map_eq_some_iff.mp shown
  simp only [Prod.mk.injEq] at result
  have smooth : machine.checkWithin Smooth (new smallOutput Z_OK) wholeCalls = true := by
    decide +kernel
  have roomy : machine.checkWithin (fun s _ => Roomy s) (new smallOutput Z_OK) wholeCalls = true := by
    decide +kernel
  have within : machine.Within Allowed (new smallOutput Z_OK) wholeCalls :=
    machine.within_implies Smooth Allowed (fun _ => True) (fun _ _ _ _ _ _ => trivial)
      (fun _ _ _ smooth => smooth.allowed) trivial (machine.within_of_check smooth)
  have always := (consumes_what_it_claims smallOutput smallOutput_valid Z_OK wholeCalls t ran).2
    within (machine.within_of_check roomy)
  exact ⟨t, ran, always, result⟩

def mixedCalls : List Call :=
  [.writeBuffer twoBytes ⟨2, [8], Z_OK⟩, .writePiece threeBytes [⟨3, [9], Z_OK⟩]]

def leftoverCalls : List Call :=
  [.writeBuffer twoBytes ⟨1, [8], Z_OK⟩, .finish [⟨1, [9], Z_STREAM_END⟩] Z_OK]

theorem mixed_writes_fail :
    (machine.run (new smallOutput Z_OK) mixedCalls).map (·.failed) =
      some (some "zstream_.next_in == NULL && zstream_.avail_in == 0") ∧
    (machine.run (new smallOutput Z_OK) leftoverCalls).map (fun t => (t.fed, t.claimed)) =
      some ([4, 5], [4]) :=
  ⟨by decide +kernel, by decide +kernel⟩

end ZlibOutputStream
end Muduo
