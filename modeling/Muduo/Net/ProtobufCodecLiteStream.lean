import Muduo.Net.ProtobufCodecLiteDecode

/-!
A byte string that arrives in chunks, each followed by a call of onMessage. Every
call goes on where the last one stopped, or meets the same error again; together
they do what one reading of the whole string does.
-/
namespace Muduo
open Lib
namespace ProtobufCodecLite
variable {M : Type} {c : ProtobufCodecLite M} {s t : Session M}
variable {bytes left more : List UInt8} {events : List (Event M)}

def receive (c : ProtobufCodecLite M) (s : Session M) (chunk : List UInt8) :
    Checked (Option (Session M)) := do
  let buf ← s.buf.append chunk
  let after ← c.onMessage buf
  pure (after.map fun t => ⟨t.buf, s.events ++ t.events, s.passed ++ t.passed⟩)

def receiveAll (c : ProtobufCodecLite M) (chunks : List (List UInt8)) (s : Session M) :
    Checked (Option (Session M)) :=
  forEach c.receive chunks s

def messages (events : List (Event M)) : List M :=
  events.filterMap fun
    | .message m => some m
    | .error _ => none

def errors (events : List (Event M)) : List ErrorCode :=
  events.filterMap fun
    | .error e => some e
    | .message _ => none

theorem errors_eq_nil (clean : ∀ e, .error e ∉ events) : errors events = [] := by
  apply List.filterMap_eq_nil_iff.mpr
  intro event member
  cases event with
  | message m => rfl
  | error e => exact absurd member (clean e)

theorem refuses_append {e : ErrorCode} (refuses : c.Refuses bytes e) (more : List UInt8) :
    c.Refuses (bytes ++ more) e := by
  cases refuses with
  | invalidLength enough outside =>
    have same : announced (bytes ++ more) = announced bytes := by
      have four : 4 ≤ bytes.length := by omega
      rw [announced, List.take_append_of_le_length four, announced]
    refine .invalidLength ?_ (same ▸ outside)
    rw [List.length_append]
    omega
  | checkSum inRange heard four wrong =>
    rw [List.append_assoc]
    exact .checkSum inRange heard four wrong
  | unknownMessageType inRange heard other =>
    rw [List.append_assoc]
    exact .unknownMessageType inRange heard other
  | parseError inRange heard unparsable =>
    rw [List.append_assoc]
    exact .parseError inRange heard unparsable

theorem parses_continue {events' : List (Event M)} {left' : List UInt8}
    (first : Parses c bytes events left) (clean : ∀ e, .error e ∉ events)
    (second : Parses c (left ++ more) events' left') :
    Parses c (bytes ++ more) (events ++ events') left' := by
  induction first with
  | waits waits => exact second
  | @refuses bytes e refuses => exact absurd (by simp) (clean e)
  | @message payload rest left m events inRange heard parsed further ih =>
    rw [List.append_assoc]
    refine .message inRange heard parsed (ih ?_ second)
    intro e member
    exact clean e (List.mem_cons_of_mem _ member)
  | skipped inRange rawCb refused further ih =>
    rw [List.append_assoc]
    exact .skipped inRange rawCb refused (ih clean second)

theorem parses_stuck {e : ErrorCode} (first : Parses c bytes events left)
    (refuses : c.Refuses left e) : Parses c (bytes ++ more) events (left ++ more) := by
  induction first with
  | waits waits => exact absurd refuses (not_refuses_of_waits waits)
  | refuses refuses' => exact .refuses (refuses_append refuses' more)
  | message inRange heard parsed further ih =>
    rw [List.append_assoc]
    exact .message inRange heard parsed (ih refuses)
  | skipped inRange rawCb refused further ih =>
    rw [List.append_assoc]
    exact .skipped inRange rawCb refused (ih refuses)

structure Received (c : ProtobufCodecLite M) (bytes : List UInt8) (s : Session M) : Prop where
  valid : s.buf.Valid
  read : ∃ events, Parses c bytes events s.buf.readable ∧ messages s.events = messages events ∧
    (errors s.events).head? = (errors events).head?

theorem receive_spec (received : Received c bytes s) (chunk : List UInt8) :
    ∃ t, c.receive s chunk = .ok (some t) ∧ Received c (bytes ++ chunk) t := by
  obtain ⟨events, parses, same, first⟩ := received.read
  obtain ⟨buf, appended, valid, readable⟩ := Buffer.append_spec received.valid chunk
  obtain ⟨events', left, parses'⟩ := parses_total c buf.readable
  obtain ⟨t, ran, did⟩ := onMessage_parses valid parses'
  have happened : t.events = events' := did.events
  refine ⟨⟨t.buf, s.events ++ t.events, s.passed ++ t.passed⟩, ?_, did.valid, ?_⟩
  · simp [receive, appended, ran]
  rw [readable] at parses'
  rcases parses_ends parses with ⟨-, clean⟩ | ⟨e, ms, refuses, shape, -⟩
  · refine ⟨events ++ events', ?_, ?_, ?_⟩
    · rw [did.readable]
      exact parses_continue parses clean parses'
    · simp only [messages, List.filterMap_append, happened] at same ⊢
      rw [same]
    · rw [errors_eq_nil clean, List.head?_nil, List.head?_eq_none_iff] at first
      simp only [errors, List.filterMap_append, happened] at first ⊢
      rw [first]
      have none_before := errors_eq_nil clean
      simp only [errors] at none_before
      rw [none_before]
  · -- The frame at fault is still in front: no message, and the same error.
    have again := parses_unique parses' (.refuses (refuses_append refuses chunk))
    refine ⟨events, ?_, ?_, ?_⟩
    · rw [did.readable, again.2]
      exact parses_stuck parses refuses
    · rw [happened, again.1]
      simp only [messages, List.filterMap_append] at same ⊢
      rw [same]
      exact List.append_nil _
    · have some_error : (errors events).head? ≠ none := by
        rw [shape]
        simp [errors]
      rw [happened]
      simp only [errors, List.filterMap_append] at first some_error ⊢
      rw [List.head?_append, first]
      exact Option.or_of_isSome (Option.isSome_iff_ne_none.mpr some_error)

theorem receiveAll_spec (chunks : List (List UInt8)) (received : Received c [] s) :
    ∃ t, c.receiveAll chunks s = .ok (some t) ∧ Received c chunks.flatten t := by
  have step : ∀ past s chunk, Received c (List.flatten past) s →
      ∃ t, c.receive s chunk = .ok (some t) ∧ Received c (List.flatten (past ++ [chunk])) t := by
    intro past s chunk received
    rw [List.flatten_append, List.flatten_singleton]
    exact receive_spec received chunk
  exact forEach_rule step [] chunks received

theorem received_nothing {b : Buffer} (valid : b.Valid) (empty : b.readable = []) :
    Received c [] ⟨b, [], []⟩ := by
  refine ⟨valid, [], ?_, rfl, rfl⟩
  rw [empty]
  exact .waits (.short (Nat.succ_pos _))

/-- However a byte string is cut into chunks, onMessage delivers the same messages,
    reports an error or not, the same first, and leaves the same bytes. -/
theorem onMessage_ignores_chunks (c : ProtobufCodecLite M) {b₁ b₂ : Buffer} (valid₁ : b₁.Valid)
    (valid₂ : b₂.Valid) (empty₁ : b₁.readable = []) (empty₂ : b₂.readable = [])
    {chunks₁ chunks₂ : List (List UInt8)} (same : chunks₁.flatten = chunks₂.flatten) :
    ∃ t₁ t₂, c.receiveAll chunks₁ ⟨b₁, [], []⟩ = .ok (some t₁) ∧
      c.receiveAll chunks₂ ⟨b₂, [], []⟩ = .ok (some t₂) ∧
      messages t₁.events = messages t₂.events ∧
      (errors t₁.events = [] ↔ errors t₂.events = []) ∧
      (errors t₁.events).head? = (errors t₂.events).head? ∧
      t₁.buf.readable = t₂.buf.readable := by
  obtain ⟨t₁, ran₁, received₁⟩ := receiveAll_spec chunks₁ (received_nothing (c := c) valid₁ empty₁)
  obtain ⟨t₂, ran₂, received₂⟩ := receiveAll_spec chunks₂ (received_nothing (c := c) valid₂ empty₂)
  obtain ⟨events₁, parses₁, messages₁, first₁⟩ := received₁.read
  obtain ⟨events₂, parses₂, messages₂, first₂⟩ := received₂.read
  rw [same] at parses₁
  obtain ⟨events, left⟩ := parses_unique parses₁ parses₂
  have first : (errors t₁.events).head? = (errors t₂.events).head? := by
    rw [first₁, first₂, events]
  refine ⟨t₁, t₂, ran₁, ran₂, ?_, ?_, first, left⟩
  · rw [messages₁, messages₂, events]
  · rw [← List.head?_eq_none_iff, first, List.head?_eq_none_iff]

def rpcChunks : List (List UInt8) :=
  [(rpc.frame [7]).take 2, (rpc.frame [7]).drop 2 ++ [0, 0], [0, 3, 9, 9, 9, 9, 9, 9, 9, 9], [9]]

theorem onMessage_ignores_chunks_of_rpc :
    ∃ b t₁ t₂, b.Valid ∧ b.readable = [] ∧
      rpc.receiveAll rpcChunks ⟨b, [], []⟩ = .ok (some t₁) ∧
      rpc.receiveAll [rpcChunks.flatten] ⟨b, [], []⟩ = .ok (some t₂) ∧
      messages t₁.events = messages t₂.events ∧
      (errors t₁.events).head? = (errors t₂.events).head? ∧
      t₁.buf.readable = t₂.buf.readable := by
  obtain ⟨b, valid, empty⟩ := Buffer.exists_readable []
  have same : rpcChunks.flatten = [rpcChunks.flatten].flatten := by
    rw [List.flatten_singleton]
  obtain ⟨t₁, t₂, ran₁, ran₂, messages, -, first, left⟩ :=
    onMessage_ignores_chunks rpc valid valid empty empty same
  exact ⟨b, t₁, t₂, valid, empty, ran₁, ran₂, messages, first, left⟩

end ProtobufCodecLite
end Muduo
