import Muduo.Net.RpcChannelCalls

/-!
Runs of two channels. Each direction of calls is a pair of a caller and a server; it
sees, of the two streams, the REQUESTs of the one and the RESPONSEs of the other. A step
changes one direction and leaves the other as it is.
-/
namespace Muduo
open Lib
namespace Rpc
variable {services : Bool → Option Services} {s t : System} {l : Label} {b : Bool}

def requests (inbox : List Packet) : List Packet :=
  inbox.filter fun p => p.message.type = .REQUEST

def responses (inbox : List Packet) : List Packet :=
  inbox.filter fun p => p.message.type = .RESPONSE

theorem requests_cons (p : Packet) (rest : List Packet) : requests (p :: rest) =
    if p.message.type = .REQUEST then p :: requests rest else requests rest := by
  simp [requests, List.filter_cons]

theorem responses_cons (p : Packet) (rest : List Packet) : responses (p :: rest) =
    if p.message.type = .RESPONSE then p :: responses rest else responses rest := by
  simp [responses, List.filter_cons]

theorem requests_append_responses {xs ys : List Packet}
    (all : ∀ p ∈ ys, p.message.type = .RESPONSE) : requests (xs ++ ys) = requests xs := by
  have none : ys.filter (fun p => p.message.type = .REQUEST) = [] := by
    apply List.filter_eq_nil_iff.mpr
    intro p mem
    simp [all p mem]
  rw [requests, List.filter_append, none, List.append_nil]
  rfl

theorem responses_append_responses {xs ys : List Packet}
    (all : ∀ p ∈ ys, p.message.type = .RESPONSE) : responses (xs ++ ys) = responses xs ++ ys := by
  have whole : ys.filter (fun p => p.message.type = .RESPONSE) = ys := by
    apply List.filter_eq_self.mpr
    intro p mem
    simp [all p mem]
  rw [responses, List.filter_append, whole]
  rfl

theorem onRequest_sends (v : Server) (services_ : Option Services) (call : Nat)
    (message : RpcMessage) :
    ∀ p ∈ (v.onRequest services_ call message).2, p.message.type = .RESPONSE := by
  by_cases started : lookup services_ message = .NO_ERROR
  · simp [Server.onRequest, started]
  · simp [Server.onRequest, started, Server.reply]

def Pair (s : System) (b : Bool) : Prop :=
  Paired (s.side b).caller (s.side !b).server (requests (s.side !b).inbox)
    (responses (s.side b).inbox)

structure Sound (s : System) : Prop where
  running : s.fault = none
  pair : ∀ b, Pair s b

theorem sound_start : Sound {} := ⟨rfl, fun _ => paired_start⟩

theorem Pair.frame (h : Pair s b) (caller : (t.side b).caller = (s.side b).caller)
    (server : (t.side !b).server = (s.side !b).server)
    (asked : requests (t.side !b).inbox = requests (s.side !b).inbox)
    (answered : responses (t.side b).inbox = responses (s.side b).inbox) : Pair t b := by
  unfold Pair
  rw [caller, server, asked, answered]
  exact h

theorem sound_of_pairs (b : Bool) (running : s.fault = none) (here : Pair s b)
    (there : Pair s !b) : Sound s :=
  ⟨running, (Bool.forall_bool' b).mpr ⟨here, there⟩⟩

section Sides
variable (s : System) (b : Bool)

@[simp] theorem side_setCaller (x : Caller) :
    (s.setCaller b x).side b = { s.side b with caller := x } := Function.update_self ..

@[simp] theorem side_setServer (x : Server) :
    (s.setServer b x).side b = { s.side b with server := x } := Function.update_self ..

@[simp] theorem side_setInbox (x : List Packet) :
    (s.setInbox b x).side b = { s.side b with inbox := x } := Function.update_self ..

@[simp] theorem peer_setCaller (x : Caller) : (s.setCaller b x).side (!b) = s.side !b :=
  Function.update_of_ne (by simp) ..

@[simp] theorem peer_setServer (x : Server) : (s.setServer b x).side (!b) = s.side !b :=
  Function.update_of_ne (by simp) ..

@[simp] theorem peer_setInbox (x : List Packet) : (s.setInbox b x).side (!b) = s.side !b :=
  Function.update_of_ne (by simp) ..

@[simp] theorem side_deliver (x : List Packet) : (s.deliver b x).side b = s.side b :=
  Function.update_of_ne (by simp) ..

@[simp] theorem peer_deliver (x : List Packet) : (s.deliver b x).side (!b) =
    { s.side !b with inbox := (s.side !b).inbox ++ x } := Function.update_self ..

end Sides

/-! ### One step -/

theorem sound_setCaller {x : Caller} (h : Sound s)
    (pair : Paired x (s.side !b).server (requests (s.side !b).inbox) (responses (s.side b).inbox)) :
    Sound (s.setCaller b x) := by
  refine sound_of_pairs b h.running ?_ ?_
  · simpa [Pair] using pair
  · exact (h.pair !b).frame (by simp) (by simp) (by simp) (by simp)

theorem sound_send {k : Nat} {c : Call} (h : Sound s) (found : (s.side b).caller.calls[k]? = some c)
    (point : c.point = .registered) :
    Sound ((s.setCaller b ((s.side b).caller.send k)).deliver b [⟨k, c.requestMessage⟩]) := by
  refine sound_of_pairs b h.running ?_ ?_
  · have pair := paired_send (h.pair b) found point
    simpa [Pair, requests, Call.requestMessage] using pair
  · refine (h.pair !b).frame (by simp) (by simp) (by simp) ?_
    simp [responses, Call.requestMessage]

theorem sound_serve {v : Server} {packets : List Packet} (h : Sound s)
    (all : ∀ p ∈ packets, p.message.type = .RESPONSE)
    (pair : Paired (s.side !b).caller v (requests (s.side b).inbox)
      (responses (s.side !b).inbox ++ packets)) :
    Sound ((s.setServer b v).deliver b packets) := by
  refine sound_of_pairs b h.running ?_ ?_
  · refine (h.pair b).frame (by simp) (by simp) ?_ (by simp)
    simp [requests_append_responses all]
  · simpa [Pair, responses_append_responses all] using pair

theorem sound_receive {p : Packet} {rest : List Packet} (h : Sound s)
    (next : (s.side b).inbox = p :: rest) :
    ∃ t, onRpcMessage services (s.setInbox b rest) b p = .ok t ∧ Sound t := by
  have here := h.pair b
  have there := h.pair !b
  simp only [Pair, Bool.not_not, next, requests_cons, responses_cons] at here there
  cases type : p.message.type with
  | RESPONSE =>
    simp only [type, reduceCtorEq, if_true, if_false] at here there
    obtain ⟨c, handled, answered⟩ := onResponse_eq here
    refine ⟨(s.setInbox b rest).setCaller b ((s.side b).caller.answer p), ?_, ?_⟩
    · simp [onRpcMessage, type, handled, answered]
    · refine sound_of_pairs b h.running ?_ ?_
      · simpa [Pair] using paired_answer here
      · simpa [Pair] using there
  | REQUEST =>
    simp only [type, reduceCtorEq, if_true, if_false] at here there
    have sends := onRequest_sends (s.side b).server (services b) p.call p.message
    obtain ⟨server, packets, served⟩ : ∃ server packets,
        (s.side b).server.onRequest (services b) p.call p.message = (server, packets) :=
      ⟨_, _, rfl⟩
    refine ⟨((s.setInbox b rest).setServer b server).deliver b packets, ?_, ?_⟩
    · simp [onRpcMessage, type, served]
    · have serving := paired_request there (services b)
      rw [served] at sends serving
      refine sound_of_pairs b h.running ?_ ?_
      · simpa [Pair, requests_append_responses sends] using here
      · simpa [Pair, responses_append_responses sends] using serving
  | ERROR =>
    simp only [type, reduceCtorEq, if_false] at here there
    refine ⟨s.setInbox b rest, ?_, ?_⟩
    · simp [onRpcMessage, type]
    · refine sound_of_pairs b h.running ?_ ?_
      · simpa [Pair] using here
      · simpa [Pair] using there

theorem perform_sound (h : Sound s)
    (few : ∀ b c, l = .number b c → (s.side b).caller.calls.length + 1 < 2 ^ 63)
    {r : Checked System} (performed : perform services s l = some r) : ∃ t, r = .ok t ∧ Sound t := by
  cases l with
  | number b c =>
    obtain rfl := Option.some.inj performed
    exact ⟨_, rfl, sound_setCaller h (paired_number (h.pair b) (few b c rfl) c)⟩
  | register b k =>
    simp only [perform] at performed
    split at performed
    · next c found =>
      split at performed
      · next point =>
        obtain rfl := Option.some.inj performed
        exact ⟨_, rfl, sound_setCaller h (paired_register (h.pair b) found point)⟩
      · cases performed
    · cases performed
  | send b k =>
    simp only [perform] at performed
    split at performed
    · next c found =>
      split at performed
      · next point =>
        obtain rfl := Option.some.inj performed
        exact ⟨_, rfl, sound_send h found point⟩
      · cases performed
    · cases performed
  | receive b =>
    simp only [perform] at performed
    split at performed
    · next p rest next =>
      obtain rfl := Option.some.inj performed
      exact sound_receive h next
    · cases performed
  | done b i response =>
    simp only [perform] at performed
    split at performed
    · next e running =>
      obtain rfl := Option.some.inj performed
      have there := h.pair !b
      simp only [Pair, Bool.not_not] at there
      refine ⟨_, rfl, sound_serve h ?_ (paired_done there running response)⟩
      simp [Server.doneCallback, Server.reply]
    · cases performed

/-! ### Runs -/

theorem onResponse_length {c c' : Caller} {message : RpcMessage}
    (handled : c.onResponse message = .ok c') : c'.calls.length = c.calls.length := by
  obtain ⟨_, -, rest⟩ := bind_eq_ok.mp handled
  split at rest
  · obtain rfl := Except.ok.inj rest
    rfl
  · obtain rfl := Except.ok.inj rest
    unfold Caller.finish
    split
    · rfl
    · split <;> split <;> simp [Caller.fill, Caller.run]

def callCount (s : System) (b : Bool) : Nat := (s.side b).caller.calls.length

theorem callCount_setCaller {x : Caller} (more : (s.side b).caller.calls.length ≤ x.calls.length)
    (b' : Bool) :
    callCount s b' ≤ callCount (s.setCaller b x) b' := by
  revert b'
  rw [Bool.forall_bool' b]
  exact ⟨by simpa [callCount] using more, by simp [callCount]⟩

@[simp] theorem callCount_setServer (b b' : Bool) (x : Server) :
    callCount (s.setServer b x) b' = callCount s b' := by
  revert b'
  rw [Bool.forall_bool' b]
  simp [callCount]

@[simp] theorem callCount_setInbox (b b' : Bool) (x : List Packet) :
    callCount (s.setInbox b x) b' = callCount s b' := by
  revert b'
  rw [Bool.forall_bool' b]
  simp [callCount]

@[simp] theorem callCount_deliver (b b' : Bool) (x : List Packet) :
    callCount (s.deliver b x) b' = callCount s b' := callCount_setInbox ..

theorem callCount_onRpcMessage {p : Packet} (handled : onRpcMessage services s b p = .ok t)
    (b' : Bool) :
    callCount s b' ≤ callCount t b' := by
  unfold onRpcMessage at handled
  split at handled
  · obtain ⟨c, answered, rest⟩ := bind_eq_ok.mp handled
    obtain rfl := Except.ok.inj rest
    refine callCount_setCaller ?_ b'
    exact Nat.le_of_eq (onResponse_length answered).symm
  · obtain rfl := Except.ok.inj handled
    simp
  · obtain rfl := Except.ok.inj handled
    exact Nat.le_refl _

theorem callCount_step (taken : (machine services).step s l = some t) (b' : Bool) :
    callCount s b' ≤ callCount t b' := by
  obtain ⟨-, performed | ⟨e, -, rfl⟩⟩ := faults.step_cases taken
  rotate_left
  · exact Nat.le_refl _
  cases l with
  | number b c =>
    obtain rfl := Except.ok.inj (Option.some.inj performed)
    exact callCount_setCaller (by simp [Caller.number]) b'
  | register b k =>
    simp only [perform] at performed
    split at performed <;> [split at performed; skip] <;> try cases performed
    exact callCount_setCaller (by simp [Caller.register]) b'
  | send b k =>
    simp only [perform] at performed
    split at performed <;> [split at performed; skip] <;> try cases performed
    rw [callCount_deliver]
    exact callCount_setCaller (by simp [Caller.send]) b'
  | receive b =>
    simp only [perform] at performed
    split at performed
    · have more := callCount_onRpcMessage (Option.some.inj performed) b'
      rwa [callCount_setInbox] at more
    · cases performed
  | done b i response =>
    simp only [perform] at performed
    split at performed <;> cases performed
    simp

theorem step_sound (h : Sound s) (few : ∀ b, callCount t b < 2 ^ 63)
    (taken : (machine services).step s l = some t) : Sound t := by
  have room : ∀ b c, l = .number b c → (s.side b).caller.calls.length + 1 < 2 ^ 63 := by
    rintro b c rfl
    have count := few b
    have numbered : (machine services).step s (.number b c) =
        some (s.setCaller b ((s.side b).caller.number c)) := faults.step_of_ok h.running rfl
    obtain rfl := Option.some.inj (numbered.symm.trans taken)
    simpa [callCount, Caller.number] using count
  obtain ⟨-, performed | ⟨e, performed, -⟩⟩ := faults.step_cases taken
  · obtain ⟨_, same, sound⟩ := perform_sound h room performed
    exact Except.ok.inj same ▸ sound
  · obtain ⟨_, impossible, -⟩ := perform_sound h room performed
    cases impossible

theorem run_sound {ls : List Label} (ran : (machine services).run {} ls = some s)
    (few : ∀ b, callCount s b < 2 ^ 63) : Sound s := by
  -- counts only grow, so that a bound at the end bounds every state before
  let inv (s : System) : Prop := (∀ b, callCount s b < 2 ^ 63) → Sound s
  have kept : ∀ s l t, inv s → (machine services).step s l = some t → inv t := by
    intro s l t sound taken few
    refine step_sound (sound fun b => ?_) few taken
    exact Nat.lt_of_le_of_lt (callCount_step taken b) (few b)
  exact (machine services).run_invariant kept (fun _ => sound_start) ran few

/-! ### What the calls of one side get -/

structure OwnAnswers (s : System) (b : Bool) : Prop where
  once : ∀ (k : Nat) call, (s.side b).caller.calls[k]? = some call → call.ran ≤ 1
  /-- When it runs, the response was filled by the execution of this call, or not at all
      as the other side has answered with an error. -/
  own : ∀ (k : Nat) call, (s.side b).caller.calls[k]? = some call → call.ran = 1 →
    (∃ bytes, call.filled = some bytes ∧
      (⟨k, call.requestMessage⟩, bytes) ∈ (s.side !b).server.finished) ∨
    (call.filled = none ∧ ∃ r ∈ (s.side !b).server.replies, r.call = k ∧
      r.request = call.requestMessage ∧ r.response.response = none ∧
      ∃ e, e ≠ .NO_ERROR ∧ r.response.error = some e)
  outstanding : ∀ id out, (s.side b).caller.outstandings_ id = some out ↔
    ∃ (k : Nat) (call : Call), (s.side b).caller.calls[k]? = some call ∧ call.id = id ∧
      call.point ≠ .numbered ∧ k ∉ (s.side b).caller.processed ∧ out = call.outstanding k
  handled : (s.side !b).server.received.Nodup ∧
    ((s.side !b).server.executions.map Execution.call ++
      (s.side !b).server.replies.map Reply.call).Perm (s.side !b).server.received
  conveyed : ((s.side !b).server.replies.map Reply.call).Perm
    ((responses (s.side b).inbox).map Packet.call ++ (s.side b).caller.processed)
  ids : ∀ r ∈ (s.side !b).server.replies, (s.side b).caller.issued[r.call]? = some r.request ∧
    r.response.type = .RESPONSE ∧ r.response.id = r.request.id
  unknown : ∀ message : RpcMessage, message.response.isSome ∨ message.error.isSome →
    (∀ (k : Nat) call, (s.side b).caller.calls[k]? = some call → call.point ≠ .numbered →
      k ∉ (s.side b).caller.processed → call.id ≠ message.id) →
    (s.side b).caller.onResponse message = .ok (s.side b).caller

section Answers
variable {c : Caller} {v : Server} {rq rs : List Packet} {k : Nat} {call : Call}

theorem Paired.own (h : Paired c v rq rs) (found : c.calls[k]? = some call) (ran : call.ran = 1) :
    (∃ bytes, call.filled = some bytes ∧ (⟨k, call.requestMessage⟩, bytes) ∈ v.finished) ∨
    (call.filled = none ∧ ∃ r ∈ v.replies, r.call = k ∧ r.request = call.requestMessage ∧
      r.response.response = none ∧ ∃ e, e ≠ .NO_ERROR ∧ r.response.error = some e) := by
  have processed : k ∈ c.processed := by
    by_contra fresh
    have waiting := (h.settled.waiting k call found fresh).1
    omega
  obtain ⟨r, replied, rfl, filled, runs⟩ := h.settled.answered k call found processed
  have given : call.response = true := by
    by_contra null
    simp [null, ran] at runs
  rw [if_pos given] at filled
  obtain ⟨issued, answers⟩ := h.genuine.replies r replied
  have request : call.requestMessage = r.request := by
    rw [Caller.issued, List.getElem?_map, found] at issued
    exact Option.some.inj issued
  rw [filled, request]
  obtain ⟨bytes, mem, response, -⟩ | ⟨e, wrong, response, error⟩ := answers.content
  · exact .inl ⟨bytes, response, mem⟩
  · exact .inr ⟨response, r, replied, rfl, rfl, response, e, wrong, error⟩

theorem Paired.once (h : Paired c v rq rs) (found : c.calls[k]? = some call) : call.ran ≤ 1 := by
  by_cases processed : k ∈ c.processed
  · obtain ⟨r, -, -, -, ran⟩ := h.settled.answered k call found processed
    rw [ran]
    split <;> omega
  · have ran := (h.settled.waiting k call found processed).1
    omega

theorem Paired.outstanding (h : Paired c v rq rs) (id : Int) (out : OutstandingCall) :
    c.outstandings_ id = some out ↔ ∃ (k : Nat) (call : Call), c.calls[k]? = some call ∧
      call.id = id ∧ call.point ≠ .numbered ∧ k ∉ c.processed ∧ out = call.outstanding k := by
  constructor
  · intro entry
    have taken : ∃ k : Nat, k < c.calls.length ∧ id = k + 1 := by
      by_contra free
      push Not at free
      rw [h.settled.vacant id free] at entry
      cases entry
    obtain ⟨k, bound, rfl⟩ := taken
    have found := List.getElem?_eq_getElem bound
    rw [h.settled.entry k _ found] at entry
    split at entry
    · next waits =>
      exact ⟨k, _, found, h.numbered.ids k _ found, waits.1, waits.2, (Option.some.inj entry).symm⟩
    · cases entry
  · rintro ⟨k, call, found, rfl, registered, fresh, rfl⟩
    rw [h.numbered.ids k call found, h.settled.entry k call found]
    exact if_pos ⟨registered, fresh⟩

theorem Paired.unknown (h : Paired c v rq rs) {message : RpcMessage}
    (asserted : message.response.isSome ∨ message.error.isSome)
    (other : ∀ (k : Nat) call, c.calls[k]? = some call → call.point ≠ .numbered →
      k ∉ c.processed → call.id ≠ message.id) : c.onResponse message = .ok c := by
  have vacant : c.outstandings_ message.id = none := by
    cases entry : c.outstandings_ message.id with
    | none => rfl
    | some out =>
      obtain ⟨k, call, found, id, registered, fresh, -⟩ := (h.outstanding _ out).mp entry
      exact absurd id (other k call found registered fresh)
  simp [Caller.onResponse, asserted, vacant]

theorem Paired.received_nodup (h : Paired c v rq rs) : v.received.Nodup := by
  have once := h.tracked.flow.nodup_iff.mpr h.numbered.once
  rw [List.append_assoc] at once
  have served := (List.nodup_append.mp once).2.1
  exact ((h.tracked.replied.append_left _).symm.trans h.tracked.received).nodup_iff.mp served

end Answers

theorem calls_get_own_answers {ls : List Label} (ran : (machine services).run {} ls = some s)
    (few : ∀ b, callCount s b < 2 ^ 63) : s.fault = none ∧ ∀ b, OwnAnswers s b := by
  have sound := run_sound ran few
  refine ⟨sound.running, fun b => ?_⟩
  have h : Paired _ _ _ _ := sound.pair b
  exact {
    once := fun _ _ found => h.once found
    own := fun _ _ found runs => h.own found runs
    outstanding := h.outstanding
    handled := ⟨h.received_nodup, h.tracked.received⟩
    conveyed := h.tracked.replied
    ids := fun r mem => ⟨(h.genuine.replies r mem).1, (h.genuine.replies r mem).2.type,
      (h.genuine.replies r mem).2.id⟩
    unknown := fun _ asserted other => h.unknown asserted other }

def echoServices (b : Bool) : Option Services :=
  if b then some ⟨fun s => s == "Echo", fun _ m => m == "echo", fun _ _ _ => true⟩ else none

def crossedRun : List Label :=
  let echo (request : List UInt8) : Call := ⟨"Echo", "echo", request, true, true, 0, .numbered, none, 0⟩
  let wrong : Call := ⟨"Echo", "shout", [3], true, true, 0, .numbered, none, 0⟩
  [.number false (echo [1]), .number false (echo [2]), .register false 1, .send false 1,
    .register false 0, .number true (echo [4]), .receive true, .send false 0, .receive true,
    .number false wrong, .register false 2, .send false 2, .receive true, .register true 0,
    .send true 0, .done true 1 [1, 1], .receive false, .receive false, .receive false,
    .receive true, .done true 0 [2, 2]]

theorem calls_get_own_answers_of_crossed : ∃ s, (machine echoServices).run {} crossedRun = some s ∧
    (s.side false).caller.calls.map Call.filled = [some [1, 1], none, none] ∧
    (s.side false).caller.calls.map Call.ran = [1, 0, 1] ∧
    s.fault = none ∧ ∀ b, OwnAnswers s b := by
  have computed : ((machine echoServices).run {} crossedRun).map (fun s =>
      ((s.side false).caller.calls.map Call.filled, (s.side false).caller.calls.map Call.ran,
        callCount s true)) = some ([some [1, 1], none, none], [1, 0, 1], 1) := by
    decide +kernel
  obtain ⟨s, ran, seen⟩ := Option.map_eq_some_iff.mp computed
  obtain ⟨filled, runs, there⟩ : _ ∧ _ ∧ _ := by simpa only [Prod.mk.injEq] using seen
  have here : callCount s false = 3 := by simpa [callCount] using congrArg List.length runs
  refine ⟨s, ran, filled, runs, calls_get_own_answers ran ?_⟩
  intro b
  cases b
  · omega
  · omega

end Rpc
end Muduo
