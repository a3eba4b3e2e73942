import Muduo.Net.RpcStream

/-!
The byte streams carry the messages: whatever way the bytes are cut on arrival, a run of
the two channels over streams is a run of the two channels over messages, in which the
packets that were sent and not handled are the ones under way.
-/
namespace Muduo
open Lib
namespace Rpc
variable {services : Bool → Option Services} {protobuf : Protobuf}

/-! ### Packets in front of the inboxes -/

namespace System
variable (s : System) (queue : Bool → List Packet) (b : Bool)

def under (s : System) (queue : Bool → List Packet) : System :=
  { s with side := fun b => { s.side b with inbox := queue b ++ (s.side b).inbox } }

@[simp] theorem caller_under : ((s.under queue).side b).caller = (s.side b).caller := rfl

@[simp] theorem server_under : ((s.under queue).side b).server = (s.side b).server := rfl

theorem ext_side {s t : System} (b : Bool) (fault : s.fault = t.fault)
    (here : s.side b = t.side b) (there : s.side (!b) = t.side !b) : s = t := by
  obtain ⟨side, _⟩ := s
  obtain ⟨side', _⟩ := t
  obtain rfl : side = side' := funext ((Bool.forall_bool' b).mpr ⟨here, there⟩)
  exact congrArg (mk side) fault

theorem setCaller_under (x : Caller) :
    (s.under queue).setCaller b x = (s.setCaller b x).under queue := by
  apply ext_side b <;> simp [setCaller, under]

theorem setServer_under (x : Server) :
    (s.under queue).setServer b x = (s.setServer b x).under queue := by
  apply ext_side b <;> simp [setServer, under]

theorem setInbox_under (x : List Packet) :
    (s.under queue).setInbox b (queue b ++ x) = (s.setInbox b x).under queue := by
  apply ext_side b <;> simp [setInbox, under]

theorem deliver_under (packets : List Packet) :
    (s.under queue).deliver b packets = (s.deliver b packets).under queue := by
  rw [deliver, deliver, ← setInbox_under, ← List.append_assoc]
  rfl

theorem drained_under (x : List Packet) (held : (s.side b).inbox = x) :
    (s.setInbox b []).under (Function.update queue b (queue b ++ x)) = s.under queue := by
  apply ext_side b <;> simp [setInbox, under, held]

theorem take_under (x y : List Packet) (drained : (s.side b).inbox = []) :
    (s.under (Function.update queue b x)).setInbox b y =
      s.under (Function.update queue b y) := by
  apply ext_side b <;> simp [setInbox, under, drained]

end System

theorem onRpcMessage_under {s u : System} {queue : Bool → List Packet} {b : Bool} {p : Packet}
    (handled : onRpcMessage services (s.under queue) b p = .ok u) :
    ∃ t, onRpcMessage services s b p = .ok t ∧ u = t.under queue ∧
      (t.side b).inbox = (s.side b).inbox := by
  unfold onRpcMessage at handled ⊢
  cases type : p.message.type with
  | RESPONSE =>
    simp only [type, System.caller_under, System.setCaller_under] at handled ⊢
    obtain ⟨c, answered, rest⟩ := bind_eq_ok.mp handled
    obtain rfl := Except.ok.inj rest
    exact ⟨_, by rw [answered]; rfl, rfl, by simp⟩
  | REQUEST =>
    simp only [type, System.server_under, System.setServer_under, System.deliver_under] at handled ⊢
    obtain rfl := Except.ok.inj handled
    exact ⟨_, rfl, rfl, by simp⟩
  | ERROR =>
    simp only [type] at handled ⊢
    obtain rfl := Except.ok.inj handled
    exact ⟨s, rfl, rfl, rfl⟩

theorem perform_under {s : System} {l : Label} {performed : Checked System}
    (enabled : perform services s l = some performed) (drained : (s.side l.side).inbox = [])
    (queue : Bool → List Packet) :
    ∃ t, performed = .ok t ∧ perform services (s.under queue) l = some (.ok (t.under queue)) ∧
      (t.side l.side).inbox = [] := by
  cases l with
  | number b c =>
    obtain rfl := Option.some.inj enabled
    exact ⟨_, rfl, by simp [perform, System.setCaller_under], by simpa [Label.side] using drained⟩
  | register b k =>
    simp only [perform, System.caller_under] at enabled ⊢
    split at enabled <;> [split at enabled; skip] <;> cases enabled
    exact ⟨_, rfl, by simp_all [System.setCaller_under], by simpa [Label.side] using drained⟩
  | send b k =>
    simp only [perform, System.caller_under] at enabled ⊢
    split at enabled <;> [split at enabled; skip] <;> cases enabled
    exact ⟨_, rfl, by simp_all [System.setCaller_under, System.deliver_under],
      by simpa [Label.side] using drained⟩
  | receive b =>
    rw [Label.side] at drained
    simp [perform, drained] at enabled
  | done b i response =>
    simp only [perform, System.server_under] at enabled ⊢
    split at enabled <;> cases enabled
    exact ⟨_, rfl, by simp_all [System.setServer_under, System.deliver_under],
      by simpa [Label.side] using drained⟩

namespace Joint
variable {b : Bool} {s t : Joint}

/-! ### What is sent -/

def posted (protobuf : Protobuf) (s : Joint) (channel : System) (b : Bool) : Joint :=
  let packets := (channel.side b).inbox
  { s with
    channel := channel.setInbox b []
    pipe := Function.update s.pipe b
      (s.pipe b ++ protobuf.codec_.wireAll (packets.map Packet.message))
    sent := Function.update s.sent b (s.sent b ++ packets) }

theorem putAll_eq (s : Joint) (b : Bool) (ps : List Packet) :
    putAll protobuf b ps s = .ok { s with
      pipe := Function.update s.pipe b
        (s.pipe b ++ protobuf.codec_.wireAll (ps.map Packet.message))
      sent := Function.update s.sent b (s.sent b ++ ps) } := by
  induction ps generalizing s with
  | nil => simp [putAll]
  | cons p ps ih =>
    simp only [putAll, put, ProtobufCodecLite.encode_eq_wire, ok_bind, pure_eq_ok]
    rw [ih]
    simp

theorem post_eq (s : Joint) (channel : System) (b : Bool) :
    s.post protobuf channel b = .ok (posted protobuf s channel b) :=
  putAll_eq ..

/-- What leads to one side: its buffer and the bytes behind it are the frames of the packets
    that were sent and not handled, and no frame in the buffer is complete. -/
structure Stream (protobuf : Protobuf) (inbox : List Packet) (inputBuffer_ : Buffer)
    (pipe : List UInt8) (sent handled : List Packet)
    (errors : List ProtobufCodecLite.ErrorCode) : Prop where
  drained : inbox = []
  valid : inputBuffer_.Valid
  order : handled <+: sent
  bytes : inputBuffer_.readable ++ pipe =
    protobuf.codec_.wireAll ((sent.drop handled.length).map Packet.message)
  short : protobuf.codec_.Short inputBuffer_.readable
    ((sent.drop handled.length).map Packet.message)
  clean : errors = []

def Synced (protobuf : Protobuf) (s : Joint) : Prop :=
  ∀ b, Stream protobuf (s.channel.side b).inbox (s.inputBuffer_ b) (s.pipe b) (s.sent b)
    (s.handled b) (s.errors b)

theorem synced_start {buffer : Buffer} (made : Buffer.new Buffer.kInitialSize = .ok buffer) :
    Synced protobuf { inputBuffer_ := fun _ => buffer } := by
  obtain ⟨valid, empty, -⟩ := holds_of_ok (Buffer.new_spec Buffer.kInitialSize) made
  intro b
  refine ⟨rfl, valid, List.prefix_rfl, ?_, ?_, rfl⟩
  · simp only [empty]
    rfl
  · simp only [empty]
    exact ProtobufCodecLite.short_nil _

theorem flying_posted (protobuf : Protobuf) (synced : Synced protobuf s) (channel : System)
    (b : Bool) : (posted protobuf s channel b).flying =
      Function.update s.flying b (s.flying b ++ (channel.side b).inbox) := by
  funext b'
  by_cases same : b' = b
  · subst same
    simp [posted, flying, List.drop_append_of_le_length (synced b').order.length_le]
  · simp [posted, flying, Function.update_of_ne same]

theorem synced_posted (synced : Synced protobuf s) {channel : System}
    (rest : (channel.side !b).inbox = []) : Synced protobuf (posted protobuf s channel b) := by
  refine (Bool.forall_bool' b).mpr ⟨?_, ?_⟩
  · obtain ⟨-, valid, order, bytes, short, clean⟩ := synced b
    have left := @List.drop_append_of_le_length _ _ (channel.side b).inbox _ order.length_le
    simp only [posted, Function.update_self]
    refine ⟨by simp, valid, order.trans (List.prefix_append _ _), ?_, ?_, clean⟩
    · rw [left, List.map_append, ← List.append_assoc, bytes]
      simp
    · rw [left, List.map_append]
      exact ProtobufCodecLite.short_append short ⟨_, bytes⟩
  · obtain ⟨-, valid, order, bytes, short, clean⟩ := synced !b
    have other : (!b) ≠ b := by simp
    simp only [posted, Function.update_of_ne other]
    exact ⟨by simpa using rest, valid, order, bytes, short, clean⟩

def overMessages (s : Joint) : System := s.channel.under s.flying

/-! ### Steps -/

structure Follows (services : Bool → Option Services) (protobuf : Protobuf) (s : Joint)
    (upper : System) : Prop where
  synced : Synced protobuf s
  sound : Sound upper
  leads : (Rpc.machine services).Leads {} upper

theorem overMessages_posted (synced : Synced protobuf s) (channel : System) (b : Bool) :
    (posted protobuf s channel b).overMessages = channel.under s.flying := by
  rw [overMessages, flying_posted protobuf synced]
  exact channel.drained_under _ _ _ rfl

theorem follows_act {l : Rpc.Label} {performed : Checked System}
    (h : Follows services protobuf s s.overMessages)
    (enabled : Rpc.perform services s.channel l = some performed) :
    ∃ channel, performed = .ok channel ∧ ((∀ b, callCount channel b < 2 ^ 63) →
      Follows services protobuf (posted protobuf s channel !l.side)
        (posted protobuf s channel !l.side).overMessages) := by
  obtain ⟨channel, rfl, above, own⟩ := perform_under enabled (h.synced l.side).drained s.flying
  refine ⟨channel, rfl, ?_⟩
  intro few
  rw [overMessages_posted h.synced]
  have taken : (Rpc.machine services).step s.overMessages l = some (channel.under s.flying) :=
    Rpc.faults.step_of_ok h.sound.running above
  constructor
  · exact synced_posted h.synced (by rwa [Bool.not_not])
  · exact step_sound h.sound few taken
  · exact (Rpc.machine services).leads_step h.leads taken

theorem follows_handle {ps : List Packet} {upper : System}
    (pending : upper = s.channel.under (Function.update s.flying b (ps ++ s.flying b)))
    (h : Follows services protobuf s upper) :
    ∃ t, handle services protobuf b ps s = .ok t ∧
      Follows services protobuf t t.overMessages := by
  induction ps generalizing s upper with
  | nil =>
    have same : upper = s.overMessages := by
      rw [pending, List.nil_append, Function.update_eq_self]
      rfl
    exact ⟨s, rfl, same ▸ h⟩
  | cons p ps ih =>
    have drained := (h.synced b).drained
    have next : (upper.side b).inbox = p :: (ps ++ s.flying b) := by
      simp [pending, System.under, drained]
    have received : ∃ u, onRpcMessage services (upper.setInbox b (ps ++ s.flying b)) b p = .ok u ∧
      Sound u := sound_receive h.sound next
    obtain ⟨u, handled, sound⟩ := received
    have taken : (Rpc.machine services).step upper (.receive b) = some u := by
      apply Rpc.faults.step_of_ok h.sound.running
      simp only [Rpc.perform, next, handled]
    rw [pending, System.take_under _ _ _ _ _ drained] at handled
    obtain ⟨channel, received, rfl, own⟩ := onRpcMessage_under handled
    let after := posted protobuf s channel !b
    have pending' : channel.under (Function.update s.flying b (ps ++ s.flying b)) =
        after.channel.under (Function.update after.flying b (ps ++ after.flying b)) := by
      rw [flying_posted protobuf h.synced, Function.update_of_ne (by simp),
        Function.update_comm (by simp)]
      have counted := channel.drained_under
        (Function.update s.flying b (ps ++ s.flying b)) (!b) _ rfl
      rw [Function.update_of_ne (by simp)] at counted
      exact counted.symm
    obtain ⟨t, rest, follows⟩ := ih pending' {
      synced := synced_posted h.synced (by rw [Bool.not_not, own, drained])
      sound := sound
      leads := (Rpc.machine services).leads_step h.leads taken }
    refine ⟨t, ?_, follows⟩
    simp only [handle, received, ok_bind, post_eq]
    exact rest

theorem numbered_own (ps more : List Packet) :
    numbered ((ps ++ more).map Packet.call) (ps.map Packet.message) = ps := by
  induction ps with
  | nil => simp [numbered]
  | cons p ps ih =>
    simp only [List.cons_append, List.map_cons, numbered, ih]

/-! ### What is read -/

section Read
variable {s : Joint} {b : Bool} {ps more : List Packet} {n : Nat} {buf : Buffer}

theorem sent_eq (order : s.handled b <+: s.sent b) : s.sent b = s.handled b ++ s.flying b := by
  obtain ⟨rest, whole⟩ := order
  rw [flying, ← whole, List.drop_left]

theorem flying_read (split : s.flying b = ps ++ more) (n : Nat) (buf : Buffer)
    (errors : List ProtobufCodecLite.ErrorCode) :
    (s.read b n buf ps errors).flying = Function.update s.flying b more := by
  funext b'
  by_cases same : b' = b
  · subst same
    have rest : (s.flying b').drop ps.length = more := by rw [split, List.drop_left]
    simpa [read, flying, ← List.drop_drop] using rest
  · simp [read, flying, Function.update_of_ne same]

theorem synced_read (synced : Synced protobuf s) (split : s.flying b = ps ++ more)
    (valid : buf.Valid) (bytes : buf.readable ++ (s.pipe b).drop n =
      protobuf.codec_.wireAll (more.map Packet.message))
    (short : protobuf.codec_.Short buf.readable (more.map Packet.message)) :
    Synced protobuf (s.read b n buf ps []) := by
  refine (Bool.forall_bool' b).mpr ⟨?_, ?_⟩
  · obtain ⟨drained, -, order, -, -, clean⟩ := synced b
    have whole : s.sent b = (s.handled b ++ ps) ++ more := by
      rw [sent_eq order, split, List.append_assoc]
    have left : (s.sent b).drop (s.handled b ++ ps).length = more := by
      rw [whole, List.drop_left]
    simp only [read, Function.update_self, List.append_nil]
    exact ⟨drained, valid, ⟨more, whole.symm⟩, left ▸ bytes, left ▸ short, clean⟩
  · have other : (!b) ≠ b := by simp
    simp only [read, Function.update_of_ne other]
    exact synced !b

end Read

theorem follows_arrive {n : Nat} (h : Follows services protobuf s s.overMessages)
    (carried : ∀ p ∈ s.sent b, protobuf.codec_.Carried p.message) :
    ∃ t, s.arrive services protobuf b n = .ok t ∧
      Follows services protobuf t t.overMessages := by
  obtain ⟨buf, appended, valid, readable⟩ :=
    Buffer.append_spec (h.synced b).valid ((s.pipe b).take n)
  have whole : buf.readable ++ (s.pipe b).drop n =
      protobuf.codec_.wireAll ((s.flying b).map Packet.message) := by
    rw [readable, List.append_assoc, List.take_append_drop, (h.synced b).bytes]
    rfl
  have sizes : ∀ m ∈ (s.flying b).map Packet.message, protobuf.codec_.Carried m := by
    intro m member
    obtain ⟨p, mem, rfl⟩ := List.mem_map.mp member
    exact carried p (List.mem_of_mem_drop mem)
  obtain ⟨got, rest, left, split, parses, behind, short⟩ :=
    ProtobufCodecLite.parses_of_prefix rfl sizes whole
  obtain ⟨session, ran, did⟩ := ProtobufCodecLite.onMessage_parses valid parses
  obtain ⟨ps, more, flying, rfl, rfl⟩ := List.map_eq_append_iff.mp split
  have events : session.events = (ps.map Packet.message).map .message := did.events
  have messages : ProtobufCodecLite.messages session.events = ps.map Packet.message := by
    rw [events]
    simp [ProtobufCodecLite.messages]
  have errors : ProtobufCodecLite.errors session.events = [] := by
    apply ProtobufCodecLite.errors_eq_nil
    rw [events]
    simp
  rw [← did.readable] at behind short
  have synced := synced_read h.synced flying did.valid behind short
  let after := s.read b n session.buf ps []
  have pending : s.overMessages =
      after.channel.under (Function.update after.flying b (ps ++ after.flying b)) := by
    rw [flying_read flying, Function.update_self, Function.update_idem, ← flying,
      Function.update_eq_self]
    rfl
  obtain ⟨t, handled, follows⟩ := follows_handle pending ⟨synced, h.sound, h.leads⟩
  refine ⟨t, ?_, follows⟩
  simp only [arrive, appended, ok_bind, ran, messages, errors, flying, numbered_own]
  exact handled

/-! ### Runs -/

structure Grows (s t : Joint) : Prop where
  calls : ∀ b, callCount s.channel b ≤ callCount t.channel b
  sent : ∀ b, s.sent b <+: t.sent b

theorem grows_posted (protobuf : Protobuf) {channel : System} (b : Bool)
    (calls : ∀ b, callCount s.channel b ≤ callCount channel b) :
    Grows s (posted protobuf s channel b) := by
  constructor
  · simpa [posted] using calls
  · intro b'
    by_cases same : b' = b
    · subst same
      simp [posted]
    · simp [posted, Function.update_of_ne same]

theorem grows_handle {ps : List Packet} (handled : handle services protobuf b ps s = .ok t) :
    Grows s t := by
  induction ps generalizing s with
  | nil =>
    obtain rfl := Except.ok.inj handled
    exact ⟨fun _ => Nat.le_refl _, fun _ => List.prefix_rfl⟩
  | cons p ps ih =>
    obtain ⟨channel, received, rest⟩ := bind_eq_ok.mp handled
    rw [post_eq, ok_bind] at rest
    have first := grows_posted protobuf (!b) (callCount_onRpcMessage received)
    have later := ih rest
    exact ⟨fun b => (first.calls b).trans (later.calls b),
      fun b => (first.sent b).trans (later.sent b)⟩

theorem grows_step {l : Label} (taken : (machine services protobuf).step s l = some t) :
    Grows s t := by
  obtain ⟨running, enabled | ⟨e, -, rfl⟩⟩ := faults.step_cases taken
  · cases l with
    | act l =>
      obtain ⟨r, acted, rest⟩ := Option.map_eq_some_iff.mp enabled
      obtain ⟨channel, rfl, posts⟩ := bind_eq_ok.mp rest
      rw [post_eq] at posts
      obtain rfl := Except.ok.inj posts
      apply grows_posted
      exact callCount_step (Rpc.faults.step_of_ok running acted)
    | arrive b n =>
      simp only [perform] at enabled
      split at enabled
      · obtain ⟨buf, -, rest⟩ := bind_eq_ok.mp (Option.some.inj enabled)
        obtain ⟨session, -, rest⟩ := bind_eq_ok.mp rest
        cases session with
        | none => cases rest
        | some session =>
          have grown := grows_handle rest
          exact ⟨grown.calls, grown.sent⟩
      · cases enabled
  · exact ⟨fun _ => Nat.le_refl _, fun _ => List.prefix_rfl⟩

structure Moderate (protobuf : Protobuf) (s : Joint) : Prop where
  few : ∀ b, callCount s.channel b < 2 ^ 63
  carried : ∀ b, ∀ p ∈ s.sent b, protobuf.codec_.Carried p.message

theorem moderate_before (grows : Grows s t) (h : Moderate protobuf t) :
    Moderate protobuf s :=
  ⟨fun b => Nat.lt_of_le_of_lt (grows.calls b) (h.few b),
    fun b p mem => h.carried b p ((grows.sent b).subset mem)⟩

theorem follows_step {l : Label} (h : Follows services protobuf s s.overMessages)
    (moderate : Moderate protobuf t) (taken : (machine services protobuf).step s l = some t) :
    Follows services protobuf t t.overMessages := by
  have before := moderate_before (grows_step taken) moderate
  obtain ⟨-, performed, enabled, rfl⟩ := faults.performed_of_step taken
  cases l with
  | act l =>
    obtain ⟨r, acted, rfl⟩ := Option.map_eq_some_iff.mp enabled
    obtain ⟨channel, rfl, follows⟩ := follows_act h acted
    rw [ok_bind, post_eq, Faults.settle] at moderate ⊢
    apply follows
    simpa [posted] using moderate.few
  | arrive b n =>
    simp only [perform] at enabled
    split at enabled
    · obtain ⟨u, ran, follows⟩ := follows_arrive (n := n) h (before.carried b)
      obtain rfl := Option.some.inj enabled
      rw [ran]
      exact follows
    · cases enabled

theorem run_follows {buffer : Buffer} {ls : List Label}
    (made : Buffer.new Buffer.kInitialSize = .ok buffer)
    (ran : (machine services protobuf).run { inputBuffer_ := fun _ => buffer } ls = some s)
    (moderate : Moderate protobuf s) : Follows services protobuf s s.overMessages := by
  let inv (s : Joint) : Prop := Moderate protobuf s → Follows services protobuf s s.overMessages
  have kept : ∀ s l t, inv s → (machine services protobuf).step s l = some t → inv t := by
    intro s l t follows taken moderate
    exact follows_step (follows (moderate_before (grows_step taken) moderate)) moderate taken
  have start : inv { inputBuffer_ := fun _ => buffer } := fun _ =>
    ⟨synced_start made, sound_start, (Rpc.machine services).leads_refl _⟩
  exact (machine services protobuf).run_invariant kept start ran moderate

end Joint

/-- However the bytes of the two streams are cut on arrival, the calls go as over messages:
    the channels are where a run over messages leads, with the packets that were sent and not
    handled under way. No assertion fails and no frame is refused; each side handles the packets
    in the order in which the other has sent them, and all of them once no byte is under way. -/
theorem streams_carry_messages {s : Joint} {buffer : Buffer} {ls : List Joint.Label}
    (made : Buffer.new Buffer.kInitialSize = .ok buffer)
    (ran : (Joint.machine services protobuf).run { inputBuffer_ := fun _ => buffer } ls = some s)
    (few : ∀ b, callCount s.channel b < 2 ^ 63)
    (carried : ∀ b, ∀ p ∈ s.sent b, protobuf.codec_.Carried p.message) :
    (∃ ks, (machine services).run {} ks = some (s.channel.under s.flying)) ∧
      s.channel.fault = none ∧ ∀ b, s.errors b = [] ∧ s.sent b = s.handled b ++ s.flying b ∧
        (s.pipe b = [] → s.handled b = s.sent b) := by
  have h := Joint.run_follows made ran ⟨few, carried⟩
  refine ⟨h.leads, h.sound.running, fun b => ⟨(h.synced b).clean, Joint.sent_eq (h.synced b).order, ?_⟩⟩
  intro empty
  obtain ⟨-, -, order, bytes, short, -⟩ := h.synced b
  rw [Joint.sent_eq order]
  change _ = protobuf.codec_.wireAll ((s.flying b).map _) at bytes
  change protobuf.codec_.Short _ ((s.flying b).map _) at short
  cases flying : s.flying b with
  | nil => rw [List.append_nil]
  | cons p ps =>
    rw [empty, List.append_nil, flying, List.map_cons, ProtobufCodecLite.wireAll_cons] at bytes
    rw [flying] at short
    have less := short p.message (by simp)
    rw [bytes, List.length_append] at less
    omega

def tabled (table : List RpcMessage) : Protobuf :=
  ⟨fun bytes => table[(bytes.headD 0).toNat]?, fun m => [UInt8.ofNat (table.idxOf m)],
    ProtobufCodecLite.adler⟩

def echoTable : List RpcMessage :=
  [{ type := .REQUEST, id := 1, service := some "Echo", method := some "echo", request := some [1] },
    { type := .RESPONSE, id := 1, response := some [1, 1] }]

def splitRun : List Joint.Label :=
  [.act (.number false ⟨"Echo", "echo", [1], true, true, 0, .numbered, none, 0⟩),
    .act (.register false 0), .act (.send false 0), .arrive true 5, .arrive true 8,
    .act (.done true 0 [1, 1]), .arrive false 3, .arrive false 9, .arrive false 1]

def emptyBuffer : Buffer :=
  ⟨Buffer.resize [] (Buffer.kCheapPrepend + Buffer.kInitialSize), Buffer.kCheapPrepend,
    Buffer.kCheapPrepend⟩

theorem streams_carry_messages_of_split : ∃ s,
    (Joint.machine echoServices (tabled echoTable)).run { inputBuffer_ := fun _ => emptyBuffer }
      splitRun = some s ∧
    (s.channel.side false).caller.calls.map Call.filled = [some [1, 1]] ∧
    ∃ ks, (machine echoServices).run {} ks = some (s.channel.under s.flying) := by
  have made : Buffer.new Buffer.kInitialSize = .ok emptyBuffer := by
    simp [Buffer.new, Buffer.readableBytes, Buffer.writableBytes, Buffer.prependableBytes,
      emptyBuffer]
  have computed : ((Joint.machine echoServices (tabled echoTable)).run
      { inputBuffer_ := fun _ => emptyBuffer } splitRun).map (fun s =>
      ((s.channel.side false).caller.calls.map Call.filled, (s.sent true).map Packet.message,
        (s.sent false).map Packet.message, callCount s.channel true)) =
      some ([some [1, 1]], echoTable.take 1, echoTable.drop 1, 0) := by
    decide +kernel
  obtain ⟨s, ran, seen⟩ := Option.map_eq_some_iff.mp computed
  obtain ⟨filled, asked, answered, there⟩ : _ ∧ _ ∧ _ ∧ _ := by simpa only [Prod.mk.injEq] using seen
  have here : callCount s.channel false = 1 := by
    simpa [callCount] using congrArg List.length filled
  have known : ∀ m ∈ echoTable, (tabled echoTable).codec_.Carried m := by
    have both : ∀ m ∈ echoTable, (tabled echoTable).codec_.size m ≤ 13 ∧
        (tabled echoTable).codec_.parseFromArray ((tabled echoTable).codec_.serialize m) = some m := by
      decide
    intro m member
    exact ⟨(both m member).1.trans (by decide), (both m member).2⟩
  refine ⟨s, ran, filled, (streams_carry_messages made ran ?_ ?_).1⟩
  · rw [Bool.forall_bool, here, there]
    decide
  · rw [Bool.forall_bool]
    constructor
    · intro p mem
      exact known _ (List.mem_of_mem_drop (answered ▸ List.mem_map_of_mem mem))
    · intro p mem
      exact known _ (List.mem_of_mem_take (asked ▸ List.mem_map_of_mem mem))

end Rpc
end Muduo
