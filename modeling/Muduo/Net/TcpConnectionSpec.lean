import Muduo.Net.TcpConnection

/-!
One specification for each member function of TcpConnection that runs in the
loop thread. `Sound` is what every function may rely on and must restore; under
it none of them fails an assertion of Buffer, Channel or EPollPoller.
-/
namespace Muduo
open Lib
namespace TcpConnection
variable {c : Conn}

namespace Conn

structure Sound (c : Conn) : Prop where
  synced : c.channel_.Synced c.slot
  valid : c.outputBuffer_.Valid

def Coupled (c : Conn) : Prop := c.channel_.isWriting = true ↔ c.outputBuffer_.readable ≠ []

def reinterest (c : Conn) (events : Events) : Conn :=
  { c with channel_ := c.channel_.updated events, slot := (c.channel_.updated events).slotOf }

theorem isWriting_eq (ch : Channel) : ch.isWriting = ch.events_.pollout := by
  simp [Channel.isWriting, Events.meets, Events.kWriteEvent]

theorem isReading_eq (ch : Channel) : ch.isReading = (ch.events_.pollin || ch.events_.pollpri) := by
  simp [Channel.isReading, Events.meets, Events.kReadEvent]

theorem pollout_union_read (ev : Events) : (ev.union .kReadEvent).pollout = ev.pollout := by
  simp [Events.union, Events.kReadEvent]

theorem pollout_without_read (ev : Events) : (ev.without .kReadEvent).pollout = ev.pollout := by
  simp [Events.without, Events.kReadEvent]

theorem isWriting_congr {ch ch' : Channel} (same : ch'.events_.pollout = ch.events_.pollout) :
    ch'.isWriting = ch.isWriting := by
  rw [isWriting_eq, isWriting_eq, same]

@[simp] theorem reinterest_state (c : Conn) (ev : Events) : (c.reinterest ev).state_ = c.state_ := rfl
@[simp] theorem reinterest_buffer (c : Conn) (ev : Events) :
    (c.reinterest ev).outputBuffer_ = c.outputBuffer_ := rfl
@[simp] theorem reinterest_reading (c : Conn) (ev : Events) :
    (c.reinterest ev).reading_ = c.reading_ := rfl
@[simp] theorem reinterest_events (c : Conn) (ev : Events) :
    (c.reinterest ev).channel_.events_ = ev := rfl
@[simp] theorem reinterest_revents (c : Conn) (ev : Events) :
    (c.reinterest ev).channel_.revents_ = c.channel_.revents_ := rfl

theorem sound_reinterest {c : Conn} (sound : c.Sound) (events : Events) :
    (c.reinterest events).Sound :=
  ⟨Channel.synced_updated _ _, sound.valid⟩

theorem sound_buffer {c : Conn} {b : Buffer} (sound : c.Sound) (valid : b.Valid) :
    Sound { c with outputBuffer_ := b } :=
  ⟨sound.synced, valid⟩

theorem readable_eq_nil_iff {b : Buffer} (valid : b.Valid) :
    b.readable = [] ↔ b.readableBytes = 0 := by
  rw [← Buffer.readable_length valid, List.length_eq_zero_iff]

end Conn

def Functor.callsBack (f : Functor) : Prop :=
  f = .writeCompleteCallback ∨ ∃ n, f = .highWaterMarkCallback n

theorem writeComplete_callsBack (c : Conn) : ∀ f ∈ c.writeComplete, f.callsBack := by
  intro f member
  unfold Conn.writeComplete at member
  split at member
  · exact Or.inl (by simpa using member)
  · cases member

theorem highWater_callsBack (c : Conn) (n : Nat) : ∀ f ∈ c.highWater n, f.callsBack := by
  intro f member
  unfold Conn.highWater at member
  dsimp only at member
  split at member
  · exact Or.inr ⟨_, by simpa using member⟩
  · cases member

def KeepsOrWrites (c c' : Conn) : Prop :=
  (c'.channel_ = c.channel_ ∧ c'.slot = c.slot) ∨
    (c.state_ ≠ .kDisconnected ∧
      c'.channel_ = c.channel_.updated (c.channel_.events_.union .kWriteEvent))

structure SendSpec (c : Conn) (data : List UInt8) (c' : Conn) (out : Output) : Prop where
  sound : c'.Sound
  state : c'.state_ = c.state_
  reading : c'.reading_ = c.reading_
  channel : KeepsOrWrites c c'
  closed : c.state_ = .kDisconnected → c' = c ∧ out = {}
  queued : ∀ f ∈ out.queued, f.callsBack
  stream : c.state_ ≠ .kDisconnected → out.broken = false → c.Coupled →
    c'.Coupled ∧ out.accepted ++ c'.outputBuffer_.readable = c.outputBuffer_.readable ++ data

theorem bufferRest_spec (sound : c.Sound) (up : c.state_ ≠ .kDisconnected) {rest : List UInt8}
    (nonempty : rest ≠ []) :
    ∃ c' out, c.bufferRest rest = .ok (c', out) ∧ out.accepted = [] ∧ c'.Coupled ∧
      c'.outputBuffer_.readable = c.outputBuffer_.readable ++ rest ∧ SendSpec c rest c' out := by
  obtain ⟨b, appended, valid, text⟩ := Buffer.append_spec sound.valid rest
  have some_text : b.readable ≠ [] := by simp [text, nonempty]
  cases writing : c.channel_.isWriting with
  | true =>
    have coupled : Conn.Coupled { c with outputBuffer_ := b } := by
      simp [Conn.Coupled, writing, some_text]
    refine ⟨{ c with outputBuffer_ := b }, { queued := c.highWater rest.length },
      by simp [Conn.bufferRest, appended, writing], rfl, coupled, text, ?_⟩
    constructor
    · exact Conn.sound_buffer sound valid
    · rfl
    · rfl
    · exact Or.inl ⟨rfl, rfl⟩
    · intro down
      exact absurd down up
    · exact highWater_callsBack c _
    · intro _ _ _
      exact ⟨coupled, text⟩
  | false =>
    have told := Channel.update_spec sound.synced (c.channel_.events_.union .kWriteEvent)
    have coupled : (Conn.reinterest { c with outputBuffer_ := b }
        (c.channel_.events_.union .kWriteEvent)).Coupled := by
      simp [Conn.Coupled, Conn.isWriting_eq, Events.union, Events.kWriteEvent, some_text]
    refine ⟨Conn.reinterest { c with outputBuffer_ := b } (c.channel_.events_.union .kWriteEvent),
      { queued := c.highWater rest.length, updates := 1 },
      by simp [Conn.bufferRest, appended, writing, Channel.enableWriting, told]; rfl,
      rfl, coupled, text, ?_⟩
    constructor
    · exact Conn.sound_reinterest (Conn.sound_buffer sound valid) _
    · rfl
    · rfl
    · exact Or.inr ⟨up, rfl⟩
    · intro down
      exact absurd down up
    · exact highWater_callsBack c _
    · intro _ _ _
      exact ⟨coupled, text⟩

theorem tryWrite_spec (sound : c.Sound) {data : List UInt8} {w : WriteResult}
    (possible : w.Possible data.length) {n : Nat} {fault : Bool} {out : Output}
    (tried : c.tryWrite data w = (n, fault, out)) :
    n ≤ data.length ∧ out.accepted = data.take n ∧ out.broken = fault ∧
      (∀ f ∈ out.queued, f.callsBack) ∧ (n = 0 ∨ c.outputBuffer_.readable = []) := by
  unfold Conn.tryWrite at tried
  split at tried
  · rename_i direct
    cases w with
    | written k =>
      simp only [Prod.mk.injEq] at tried
      obtain ⟨rfl, rfl, rfl⟩ := tried
      refine ⟨possible, rfl, rfl, ?_, Or.inr ((Conn.readable_eq_nil_iff sound.valid).mpr direct.2)⟩
      intro f member
      dsimp only at member
      split at member
      · exact writeComplete_callsBack c f member
      · cases member
    | failed e =>
      simp only [Prod.mk.injEq] at tried
      obtain ⟨rfl, rfl, rfl⟩ := tried
      exact ⟨Nat.zero_le _, rfl, rfl, by simp, Or.inl rfl⟩
  · simp only [Prod.mk.injEq] at tried
    obtain ⟨rfl, rfl, rfl⟩ := tried
    exact ⟨Nat.zero_le _, rfl, rfl, by simp, Or.inl rfl⟩

theorem split_stream {readable : List UInt8} (data : List UInt8) {n : Nat}
    (bypass : n = 0 ∨ readable = []) :
    data.take n ++ (readable ++ data.drop n) = readable ++ data := by
  rcases bypass with none | empty
  · subst none
    simp
  · subst empty
    simp

theorem sendInLoop_spec (sound : c.Sound) (data : List UInt8) {w : WriteResult}
    (possible : w.Possible data.length) :
    ∃ c' out, c.sendInLoop data w = .ok (c', out) ∧ SendSpec c data c' out := by
  by_cases down : c.state_ = .kDisconnected
  · refine ⟨c, {}, by simp [Conn.sendInLoop, down], sound, rfl, rfl, Or.inl ⟨rfl, rfl⟩, ?_,
      by simp, ?_⟩
    · intro _
      exact ⟨rfl, rfl⟩
    · intro up
      exact absurd down up
  · obtain ⟨n, fault, out, tried⟩ : ∃ n fault out, c.tryWrite data w = (n, fault, out) :=
      ⟨_, _, _, rfl⟩
    obtain ⟨bound, accepted, broken, queued, bypass⟩ := tryWrite_spec sound possible tried
    by_cases more : fault = false ∧ 0 < data.length - n
    · have rest : data.drop n ≠ [] := by
        intro empty
        have := congrArg List.length empty
        simp only [List.length_drop, List.length_nil] at this
        omega
      obtain ⟨c', out', buffered, nothing, coupled, text, spec⟩ := bufferRest_spec sound down rest
      refine ⟨c', out.also out',
        by simp [Conn.sendInLoop, down, tried, more.1, more.2, buffered], ?_⟩
      constructor
      · exact spec.sound
      · exact spec.state
      · exact spec.reading
      · exact spec.channel
      · intro closed
        exact absurd closed down
      · intro f member
        rcases List.mem_append.mp member with first | second
        · exact queued f first
        · exact spec.queued f second
      · intro _ _ _
        refine ⟨coupled, ?_⟩
        simp only [Output.also, nothing, List.append_nil, accepted, text]
        exact split_stream data bypass
    · have whole : data.length - n ≤ data.length := Nat.sub_le _ _
      have skipped : c.sendInLoop data w = .ok (c, out) := by
        simp only [Conn.sendInLoop, if_neg down, tried, assertThat_of_true whole, ok_bind,
          if_neg more, pure_eq_ok]
      refine ⟨c, out, skipped, ?_⟩
      constructor
      · exact sound
      · rfl
      · rfl
      · exact Or.inl ⟨rfl, rfl⟩
      · intro closed
        exact absurd closed down
      · exact queued
      · intro _ whole coupled
        have all : n = data.length := by
          rw [broken] at whole
          simp only [whole, true_and, Nat.not_lt] at more
          omega
        have stream := split_stream data bypass
        rw [List.drop_eq_nil_of_le (Nat.le_of_eq all.symm), List.append_nil] at stream
        exact ⟨coupled, by rw [accepted]; exact stream⟩

structure DrainSpec (c c' : Conn) (out : Output) (drained : Bool) : Prop where
  sound : c'.Sound
  state : c'.state_ = c.state_
  reading : c'.reading_ = c.reading_
  channel : (c'.channel_ = c.channel_ ∧ c'.slot = c.slot) ∨
    (c.channel_.isWriting = true ∧
      c'.channel_ = c.channel_.updated (c.channel_.events_.without .kWriteEvent))
  idle : c.channel_.isWriting = false → c' = c ∧ out = {} ∧ drained = false
  queued : ∀ f ∈ out.queued, f.callsBack
  stream : out.accepted ++ c'.outputBuffer_.readable = c.outputBuffer_.readable
  coupled : c.Coupled → c'.Coupled
  empty : drained = true → c'.outputBuffer_.readable = [] ∧ c'.channel_.isWriting = false

theorem handleWrite_keeps (sound : c.Sound) (writing : c.channel_.isWriting = true)
    (broken : Bool) : DrainSpec c c { broken := broken } false := by
  constructor
  · exact sound
  · rfl
  · rfl
  · exact Or.inl ⟨rfl, rfl⟩
  · intro off
    rw [writing] at off
    cases off
  · simp
  · rfl
  · exact id
  · intro impossible
    cases impossible

theorem handleWrite_spec (sound : c.Sound) {w : WriteResult}
    (possible : w.Possible c.outputBuffer_.readableBytes) :
    ∃ c' out drained, c.handleWrite w = .ok (c', out, drained) ∧ DrainSpec c c' out drained := by
  cases writing : c.channel_.isWriting with
  | false =>
    refine ⟨c, {}, false, by simp [Conn.handleWrite, writing], sound, rfl, rfl,
      Or.inl ⟨rfl, rfl⟩, fun _ => ⟨rfl, rfl, rfl⟩, by simp, rfl, id, by simp⟩
  | true =>
    cases w with
    | failed e =>
      exact ⟨c, { broken := e.fatal }, false, by simp [Conn.handleWrite, writing],
        handleWrite_keeps sound writing _⟩
    | written k =>
      cases k with
      | zero =>
        exact ⟨c, {}, false, by simp [Conn.handleWrite, writing],
          handleWrite_keeps sound writing false⟩
      | succ n =>
        obtain ⟨b, retrieved, valid, left⟩ := Buffer.retrieve_spec sound.valid possible
        have stream : c.outputBuffer_.readable.take (n + 1) ++ b.readable =
            c.outputBuffer_.readable := by
          rw [left, List.take_append_drop]
        have not_idle : ∀ {p : Prop}, c.channel_.isWriting = false → p := by
          intro p off
          rw [writing] at off
          cases off
        by_cases done : b.readableBytes = 0
        · have told := Channel.update_spec sound.synced (c.channel_.events_.without .kWriteEvent)
          have none_left : b.readable = [] := (Conn.readable_eq_nil_iff valid).mpr done
          refine ⟨Conn.reinterest { c with outputBuffer_ := b }
              (c.channel_.events_.without .kWriteEvent),
            { accepted := c.outputBuffer_.readable.take (n + 1), queued := c.writeComplete
              updates := 1 }, true,
            by
              simp [Conn.handleWrite, writing, retrieved, done, Channel.disableWriting, told]
              exact ⟨rfl, rfl⟩,
            ?_⟩
          constructor
          · exact Conn.sound_reinterest (Conn.sound_buffer sound valid) _
          · rfl
          · rfl
          · exact Or.inr ⟨writing, rfl⟩
          · exact not_idle
          · exact writeComplete_callsBack c
          · exact stream
          · intro _
            simp [Conn.Coupled, Conn.isWriting_eq, Events.without, Events.kWriteEvent, none_left]
          · intro _
            exact ⟨none_left, by
              simp [Conn.isWriting_eq, Events.without, Events.kWriteEvent]⟩
        · have some_left : b.readable ≠ [] := by
            intro none_left
            exact done ((Conn.readable_eq_nil_iff valid).mp none_left)
          refine ⟨{ c with outputBuffer_ := b },
            { accepted := c.outputBuffer_.readable.take (n + 1) }, false,
            by simp [Conn.handleWrite, writing, retrieved, done], ?_⟩
          constructor
          · exact Conn.sound_buffer sound valid
          · rfl
          · rfl
          · exact Or.inl ⟨rfl, rfl⟩
          · exact not_idle
          · simp
          · exact stream
          · intro _
            simp [Conn.Coupled, writing, some_left]
          · intro impossible
            cases impossible

def Conn.disconnected (c : Conn) : Conn :=
  { c.reinterest .kNoneEvent with state_ := .kDisconnected }

/-- The connection after connectEstablished has set state_, tied and enabled reading. -/
def Conn.established (c : Conn) : Conn :=
  { Conn.reinterest { c with channel_ := c.channel_.tie } (c.channel_.events_.union .kReadEvent) with
    state_ := .kConnected }

theorem disconnect_spec (sound : c.Sound) :
    c.disconnect = .ok (c.disconnected, { updates := 1 }) := by
  simp only [Conn.disconnect, Channel.disableAll, Channel.update_spec sound.synced, ok_bind]
  rfl

theorem sound_disconnected (sound : c.Sound) : c.disconnected.Sound :=
  ⟨Channel.synced_updated _ _, sound.valid⟩

theorem alive_up (alive : c.alive) : c.state_ ≠ .kDisconnected := by
  intro down
  rw [Conn.alive, down] at alive
  rcases alive with up | closing
  · cases up
  · cases closing

theorem handleClose_spec (sound : c.Sound) (alive : c.alive) :
    c.handleClose = .ok (c.disconnected, { updates := 1 }) := by
  simp only [Conn.handleClose, assertThat_of_true alive, ok_bind]
  exact disconnect_spec sound

theorem handleClose_fails (dead : ¬c.alive) :
    c.handleClose = .error "state_ == kConnected || state_ == kDisconnecting" := by
  simp only [Conn.handleClose, assertThat_of_false dead, error_bind]

theorem connectEstablished_spec (sound : c.Sound) (connecting : c.state_ = .kConnecting) :
    c.connectEstablished = .ok (c.established, { updates := 1 }) := by
  have synced : c.channel_.tie.Synced c.slot := ⟨sound.synced.index, sound.synced.slot⟩
  simp only [Conn.connectEstablished, assertThat_of_true connecting, ok_bind,
    Channel.enableReading, Channel.update_spec synced]
  rfl

theorem connectEstablished_fails (not_connecting : c.state_ ≠ .kConnecting) :
    c.connectEstablished = .error "state_ == kConnecting" := by
  simp only [Conn.connectEstablished, assertThat_of_false not_connecting, error_bind]

theorem sound_established (sound : c.Sound) : c.established.Sound :=
  ⟨Channel.synced_updated _ _, sound.valid⟩

theorem startReadInLoop_spec (sound : c.Sound) :
    c.startReadInLoop = .ok (if c.reading_ = false ∨ c.channel_.isReading = false then
      ({ c.reinterest (c.channel_.events_.union .kReadEvent) with reading_ := true },
        { updates := 1 })
      else (c, {})) := by
  unfold Conn.startReadInLoop
  split
  · simp only [Channel.enableReading, Channel.update_spec sound.synced, ok_bind]
    rfl
  · rfl

theorem stopReadInLoop_spec (sound : c.Sound) :
    c.stopReadInLoop = .ok (if c.reading_ = true ∨ c.channel_.isReading = true then
      ({ c.reinterest (c.channel_.events_.without .kReadEvent) with reading_ := false },
        { updates := 1 })
      else (c, {})) := by
  unfold Conn.stopReadInLoop
  split
  · simp only [Channel.disableReading, Channel.update_spec sound.synced, ok_bind]
    rfl
  · rfl

end TcpConnection
end Muduo
