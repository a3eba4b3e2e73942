import Mathlib.Logic.Function.Basic
import Muduo.Net.Buffer

/-!
The purpose of Buffer, stated on its own: a family of byte deques. A run is any
finite sequence of buffer calls on any number of buffers, swap included. Each
call must meet the bound its caller is asked to keep; everything the class
asserts on the way is then derived, not assumed.
-/
namespace Muduo
open Lib
namespace BufferDeque
variable {ι : Type} [DecidableEq ι] {s : ι → Buffer}

inductive DequeOp (ι : Type) where
  | pushBack (i : ι) (data : List UInt8)
  | pushFront (i : ι) (data : List UInt8)
  | popFront (i : ι) (n : Nat)
  | popBack (i : ι) (n : Nat)
  | clear (i : ι)
  | exchange (i j : ι)
  | idle

def dequeStep (q : ι → List UInt8) : DequeOp ι → ι → List UInt8
  | .pushBack i data => Function.update q i (q i ++ data)
  | .pushFront i data => Function.update q i (data ++ q i)
  | .popFront i n => Function.update q i ((q i).drop n)
  | .popBack i n => Function.update q i ((q i).take ((q i).length - n))
  | .clear i => Function.update q i []
  | .exchange i j => Function.update (Function.update q i (q j)) j (q i)
  | .idle => q

/-- retrieveUntil is called with the pointer peek() + offset, and write stores the
    data at beginWrite() before hasWritten(data.length). -/
inductive Op (ι : Type) where
  | append (i : ι) (data : List UInt8)
  | prepend (i : ι) (data : List UInt8)
  | retrieve (i : ι) (len : Nat)
  | retrieveUntil (i : ι) (offset : Nat)
  | retrieveAsString (i : ι) (len : Nat)
  | retrieveAll (i : ι)
  | unwrite (i : ι) (len : Nat)
  | ensureWritableBytes (i : ι) (len : Nat)
  | write (i : ι) (data : List UInt8)
  | swap (i j : ι)

def meaning : Op ι → DequeOp ι
  | .append i data => .pushBack i data
  | .prepend i data => .pushFront i data
  | .retrieve i len => .popFront i len
  | .retrieveUntil i offset => .popFront i offset
  | .retrieveAsString i len => .popFront i len
  | .retrieveAll i => .clear i
  | .unwrite i len => .popBack i len
  | .ensureWritableBytes _ _ => .idle
  | .write i data => .pushBack i data
  | .swap i j => .exchange i j

def handedBack (q : ι → List UInt8) : Op ι → List (List UInt8)
  | .retrieveAsString i len => [(q i).take len]
  | _ => []

def dequeRun : (ι → List UInt8) → List (Op ι) → (ι → List UInt8) × List (List UInt8)
  | q, [] => (q, [])
  | q, op :: ops =>
    let rest := dequeRun (dequeStep q (meaning op)) ops
    (rest.1, handedBack q op ++ rest.2)

def step (s : ι → Buffer) : Op ι → Checked ((ι → Buffer) × List (List UInt8))
  | .append i data => do
    let b ← (s i).append data
    pure (Function.update s i b, [])
  | .prepend i data => do
    let b ← (s i).prepend data
    pure (Function.update s i b, [])
  | .retrieve i len => do
    let b ← (s i).retrieve len
    pure (Function.update s i b, [])
  | .retrieveUntil i offset => do
    let b ← (s i).retrieveUntil ((s i).peek + offset)
    pure (Function.update s i b, [])
  | .retrieveAsString i len => do
    let r ← (s i).retrieveAsString len
    pure (Function.update s i r.2, [r.1])
  | .retrieveAll i => pure (Function.update s i (s i).retrieveAll, [])
  | .unwrite i len => do
    let b ← (s i).unwrite len
    pure (Function.update s i b, [])
  | .ensureWritableBytes i len => do
    let b ← (s i).ensureWritableBytes len
    pure (Function.update s i b, [])
  | .write i data => do
    let b ← (s i).writeThenHasWritten data
    pure (Function.update s i b, [])
  | .swap i j =>
    let r := (s i).swap (s j)
    pure (Function.update (Function.update s i r.1) j r.2, [])

def run : (ι → Buffer) → List (Op ι) → Checked ((ι → Buffer) × List (List UInt8))
  | s, [] => pure (s, [])
  | s, op :: ops => do
    let r ← step s op
    let rest ← run r.1 ops
    pure (rest.1, r.2 ++ rest.2)

def Allowed (s : ι → Buffer) : Op ι → Prop
  | .prepend i data => data.length ≤ (s i).prependableBytes
  | .retrieve i len => len ≤ (s i).readableBytes
  | .retrieveUntil i offset => offset ≤ (s i).readableBytes
  | .retrieveAsString i len => len ≤ (s i).readableBytes
  | .unwrite i len => len ≤ (s i).readableBytes
  | .write i data => data.length ≤ (s i).writableBytes
  | _ => True

instance (s : ι → Buffer) (op : Op ι) : Decidable (Allowed s op) := by
  cases op <;> simp only [Allowed] <;> infer_instance

def Legal : (ι → Buffer) → List (Op ι) → Prop
  | _, [] => True
  | s, op :: ops => Allowed s op ∧
    match step s op with
    | .ok r => Legal r.1 ops
    | .error _ => True

instance legalDecidable : (s : ι → Buffer) → (ops : List (Op ι)) → Decidable (Legal s ops)
  | _, [] => isTrue trivial
  | s, op :: ops =>
    match h : step s op with
    | .ok r =>
      have := legalDecidable r.1 ops
      decidable_of_iff (Allowed s op ∧ Legal r.1 ops) (by simp [Legal, h])
    | .error _ => decidable_of_iff (Allowed s op) (by simp [Legal, h])

def contents (s : ι → Buffer) : ι → List UInt8 := fun i => (s i).readable

theorem valid_update {i : ι} {b : Buffer} (valid : ∀ j, (s j).Valid) (new : b.Valid) :
    ∀ j, (Function.update s i b j).Valid := by
  intro j
  by_cases same : j = i
  · subst same
    simpa using new
  · simpa [Function.update_of_ne same] using valid j

theorem contents_update (s : ι → Buffer) (i : ι) (b : Buffer) :
    contents (Function.update s i b) = Function.update (contents s) i b.readable := by
  funext j
  by_cases same : j = i
  · subst same
    simp [contents]
  · simp [contents, Function.update_of_ne same]

theorem refined_at {op : Op ι} (i : ι) (b : Buffer) (valid : ∀ j, (s j).Valid) (new : b.Valid)
    (ran : step s op = .ok (Function.update s i b, handedBack (contents s) op))
    (text : Function.update (contents s) i b.readable = dequeStep (contents s) (meaning op)) :
    ∃ s', step s op = .ok (s', handedBack (contents s) op) ∧ (∀ j, (s' j).Valid) ∧
      contents s' = dequeStep (contents s) (meaning op) :=
  ⟨_, ran, valid_update valid new, (contents_update s i b).trans text⟩

theorem step_refines {op : Op ι} (valid : ∀ i, (s i).Valid) (allowed : Allowed s op) :
    ∃ s', step s op = .ok (s', handedBack (contents s) op) ∧ (∀ i, (s' i).Valid) ∧
      contents s' = dequeStep (contents s) (meaning op) := by
  cases op with
  | append i data =>
    obtain ⟨b, ran, new, text⟩ := Buffer.append_spec (valid i) data
    exact refined_at i b valid new (by simp [step, ran, handedBack]) (by rw [text]; rfl)
  | prepend i data =>
    obtain ⟨b, ran, new, text⟩ := Buffer.prepend_spec (valid i) allowed
    exact refined_at i b valid new (by simp [step, ran, handedBack]) (by rw [text]; rfl)
  | retrieve i len =>
    obtain ⟨b, ran, new, text⟩ := Buffer.retrieve_spec (valid i) allowed
    exact refined_at i b valid new (by simp [step, ran, handedBack]) (by rw [text]; rfl)
  | retrieveUntil i offset =>
    obtain ⟨b, ran, new, text⟩ := Buffer.retrieveUntil_spec (valid i) allowed
    exact refined_at i b valid new (by simp [step, ran, handedBack]) (by rw [text]; rfl)
  | retrieveAsString i len =>
    obtain ⟨b, ran, new, text⟩ := Buffer.retrieveAsString_spec (valid i) allowed
    exact refined_at i b valid new (by simp [step, ran, handedBack, contents])
      (by rw [text]; rfl)
  | retrieveAll i =>
    obtain ⟨new, text⟩ := Buffer.retrieveAll_spec (valid i)
    exact refined_at i (s i).retrieveAll valid new rfl (by rw [text]; rfl)
  | unwrite i len =>
    obtain ⟨b, ran, new, text⟩ := Buffer.unwrite_spec (valid i) allowed
    exact refined_at i b valid new (by simp [step, ran, handedBack]) (by rw [text]; rfl)
  | ensureWritableBytes i len =>
    obtain ⟨b, ran, new, text, _⟩ := Buffer.ensureWritableBytes_spec (valid i) len
    refine refined_at i b valid new (by simp [step, ran, handedBack]) ?_
    rw [text]
    exact Function.update_eq_self i (contents s)
  | write i data =>
    obtain ⟨b, ran, new, text⟩ := Buffer.hasWritten_spec (valid i) allowed
    exact refined_at i b valid new (by simp [step, ran, handedBack]) (by rw [text]; rfl)
  | swap i j =>
    refine ⟨_, rfl, valid_update (valid_update valid (valid j)) (valid i), ?_⟩
    rw [contents_update, contents_update]
    rfl

theorem run_refines {ops : List (Op ι)} (valid : ∀ i, (s i).Valid) (legal : Legal s ops) :
    ∃ s' out, run s ops = .ok (s', out) ∧ (∀ i, (s' i).Valid) ∧
      dequeRun (contents s) ops = (contents s', out) := by
  induction ops generalizing s with
  | nil => exact ⟨s, [], rfl, valid, rfl⟩
  | cons op ops ih =>
    obtain ⟨t, first, valid', text⟩ := step_refines valid legal.1
    have rest := legal.2
    simp only [first] at rest
    obtain ⟨s', out, ran, valid'', agree⟩ := ih valid' rest
    refine ⟨s', handedBack (contents s) op ++ out, ?_, valid'', ?_⟩
    · simp [run, first, ran]
    · simp only [dequeRun, ← text, agree]

theorem legal_take {ops : List (Op ι)} (legal : Legal s ops) (k : Nat) :
    Legal s (ops.take k) := by
  induction ops generalizing s k with
  | nil => simpa using legal
  | cons op ops ih =>
    cases k with
    | zero => trivial
    | succ k =>
      obtain ⟨allowed, rest⟩ := legal
      refine ⟨allowed, ?_⟩
      cases h : step s op with
      | error e => trivial
      | ok r =>
        simp only [h] at rest
        exact ih rest k

/-- Every legal sequence of calls on freshly constructed buffers runs without a
    failed assertion, and after each prefix of it the buffers are valid and hold
    what the deques hold; the strings handed back are those popped. -/
theorem buffer_refines_deque (initialSize : ι → Nat) (fresh : ι → Buffer)
    (built : ∀ i, Buffer.new (initialSize i) = .ok (fresh i))
    (ops : List (Op ι)) (legal : Legal fresh ops) (k : Nat) :
    ∃ s out, run fresh (ops.take k) = .ok (s, out) ∧ (∀ i, (s i).Valid) ∧
      dequeRun (fun _ => []) (ops.take k) = (fun i => (s i).readable, out) := by
  have start : ∀ i, (fresh i).Valid ∧ (fresh i).readable = [] := by
    intro i
    obtain ⟨b, made, valid, empty, _⟩ := Buffer.new_spec (initialSize i)
    rw [built i, Except.ok.injEq] at made
    exact made ▸ ⟨valid, empty⟩
  have empty : contents fresh = fun _ => [] := funext fun i => (start i).2
  obtain ⟨s, out, ran, valid, agree⟩ :=
    run_refines (fun i => (start i).1) (legal_take legal k)
  exact ⟨s, out, ran, valid, by rw [← empty]; exact agree⟩

def sampleOps : List (Op Bool) :=
  [.append true [1, 2, 3, 4, 5], .retrieve true 3, .write true [], .append true [6, 7, 8],
    .prepend true [9, 9], .unwrite true 1, .swap true false, .retrieveUntil false 2,
    .retrieveAsString false 3, .ensureWritableBytes true 40, .retrieveAll false]

theorem buffer_refines_deque_sample :
    ∃ fresh : Bool → Buffer, (∀ i, Buffer.new 4 = .ok (fresh i)) ∧ Legal fresh sampleOps ∧
      ∃ s out, run fresh (sampleOps.take 9) = .ok (s, out) ∧ (∀ i, (s i).Valid) ∧
        dequeRun (fun _ => []) (sampleOps.take 9) = (fun i => (s i).readable, out) := by
  let b : Buffer := ⟨List.replicate 12 0, 8, 8⟩
  have built : Buffer.new 4 = .ok b := by decide
  have legal : Legal (fun _ => b) sampleOps := by decide
  exact ⟨fun _ => b, fun _ => built, legal,
    buffer_refines_deque (fun _ => 4) (fun _ => b) (fun _ => built) sampleOps legal 9⟩

end BufferDeque
end Muduo
