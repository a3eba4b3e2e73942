import Muduo.Net.HttpContextStream
import Muduo.Net.HttpServer

/-!
What one call of onMessage does, in terms of the bytes behind the last answered request:
it waits for more of them, refuses them, answers the request that they begin with, or
fails in setMethod. The last can happen only after a request line was refused behind its
method: the line stays unread, the method stays set, and the next call begins with that
line again.
-/
namespace Muduo
open Lib
namespace HttpContext
open Buffer (lineEnd lineEnd_fits)

/-- A request line was refused after its method had been taken over. -/
def Stuck (c : HttpContext) : Prop :=
  c.state_ = .kExpectRequestLine ∧ c.request_.method_ ≠ .kInvalid

instance (c : HttpContext) : Decidable (Stuck c) :=
  inferInstanceAs (Decidable (_ ∧ _))

section
variable {c c' : HttpContext} {bytes left line : List UInt8} {v : Verdict} {i : Nat}
variable {r request : HttpRequest} {t : Int} {b : Buffer}

theorem processUrl_method (r : HttpRequest) (url : List UInt8) :
    (processUrl r url).method_ = r.method_ := by
  simp only [processUrl]
  split
  · rfl
  · rfl

theorem processVersion_method (r : HttpRequest) (version : List UInt8) :
    (processVersion r version).1.method_ = r.method_ := by
  simp only [processVersion]
  split
  · split
    · rfl
    · split
      · rfl
      · rfl
  · rfl

theorem processRequestLine_refused (fresh : r.method_ = .kInvalid)
    (refused : processRequestLine r line = .ok (request, false)) :
    (request = r ∧ (32 ∈ line → HttpRequest.methodOf (line.take (line.idxOf 32)) = .kInvalid)) ∨
      request.method_ ≠ .kInvalid ∧ 32 ∈ line ∧
        HttpRequest.methodOf (line.take (line.idxOf 32)) ≠ .kInvalid := by
  simp only [processRequestLine, setMethod_invalid fresh, ok_bind, pure_eq_ok] at refused
  split at refused
  · rename_i space
    have member : 32 ∈ line := not_not.mp (mt List.idxOf_eq_length_iff.mpr space)
    split at refused
    · rename_i known
      have known := of_decide_eq_true known
      right
      refine ⟨?_, member, known⟩
      split at refused
      · have result := congrArg (fun p => p.1.method_) (Except.ok.inj refused)
        rw [processVersion_method, processUrl_method] at result
        exact result ▸ known
      · cases refused
        exact known
    · rename_i unknown
      left
      have invalid : HttpRequest.methodOf (line.take (line.idxOf 32)) = .kInvalid := by
        simpa using unknown
      cases refused
      exact ⟨by rw [invalid, ← fresh], fun _ => invalid⟩
  · rename_i none_
    cases refused
    refine Or.inl ⟨rfl, fun space => ?_⟩
    exact absurd space (List.idxOf_eq_length_iff.mp (not_not.mp none_))

theorem processRequestLine_trips (known : r.method_ ≠ .kInvalid) (space : 32 ∈ line) :
    processRequestLine r line = .error "method_ == kInvalid" := by
  have found : line.idxOf 32 ≠ line.length := fun absent =>
    List.idxOf_eq_length_iff.mp absent space
  simp only [processRequestLine, if_pos found, HttpRequest.setMethod, assertThat_of_false known]
  rfl

theorem headers_not_refused (reads : Reads c bytes v c' left) (state : c.state_ = .kExpectHeaders) :
    v ≠ .error := by
  induction reads with
  | waits => decide
  | refused state' => simp [state] at state'
  | requestLine state' => simp [state] at state'
  | header _ _ _ _ ih => exact ih state
  | lastLine => decide

theorem reads_refused (reads : Reads c bytes .error c' left) :
    left = bytes ∧ ∃ i request, lineEnd bytes = some i ∧
      processRequestLine c.request_ (bytes.take i) = .ok (request, false) ∧
      c' = { c with request_ := request } ∧ c.state_ = .kExpectRequestLine := by
  cases reads with
  | refused state ends processed => exact ⟨rfl, _, _, ends, processed, rfl, state⟩
  | requestLine _ _ _ further => exact absurd rfl (headers_not_refused further rfl)
  | header state _ _ further => exact absurd rfl (headers_not_refused further state)

theorem refused_context (reads : Reads {} bytes .error c' left) :
    left = bytes ∧ (c' = {} ∨ Stuck c' ∧ ∃ i, lineEnd bytes = some i ∧ 32 ∈ bytes.take i) := by
  obtain ⟨same, i, request, ends, processed, rfl, -⟩ := reads_refused reads
  refine ⟨same, ?_⟩
  rcases processRequestLine_refused rfl processed with ⟨rfl, -⟩ | ⟨known, space, -⟩
  · exact Or.inl rfl
  · exact Or.inr ⟨⟨rfl, known⟩, i, ends, space⟩

theorem parseRequest_trips (valid : b.Valid) (stuck : Stuck c) (ends : lineEnd b.readable = some i)
    (space : 32 ∈ b.readable.take i) :
    c.parseRequest b t = .error "method_ == kInvalid" := by
  have shows_ : Shows ⟨c, b, true⟩ (Parsing.verdict ⟨c, b, true⟩) c.untimed b.readable :=
    ⟨valid, rfl, rfl, rfl⟩
  obtain ⟨crlf, text, -⟩ := line_of_shows shows_ ends
  have failed : turn t ⟨c, b, true⟩ = .error "method_ == kInvalid" := by
    have trips := processRequestLine_trips stuck.2 space
    simp only [turn, stuck.1, expectRequestLine, crlf, text, trips]
    rfl
  simp only [parseRequest, whileLoop, failed]
  rfl

end
end HttpContext

namespace HttpServer
open HttpContext (Stuck Reads Ready reads_total ready_of_reads reads_continue gotAll_of_reads
  parseRequest_reads refused_context parseRequest_trips verdict_gotAll verdict_needsMore)
variable {σ : Type} (server : HttpServer σ)

def Pending (s : Session σ) : Prop :=
  ∀ more v c' left, Reads s.context.untimed (s.inputBuffer_.readable ++ more) v c' left →
    Reads {} (s.since ++ more) v c' left

def Refused (bytes : List UInt8) : Prop := ∃ c left, Reads {} bytes .error c left

structure Open (s : Session σ) : Prop where
  running : s.fault = none
  valid : s.inputBuffer_.Valid
  expects : (Ready s.context ∧ Pending s) ∨ Stuck s.context ∧ Refused s.since ∧
    ∃ i, Buffer.lineEnd s.inputBuffer_.readable = some i ∧ 32 ∈ s.inputBuffer_.readable.take i

inductive Served (s : Session σ) (bytes : List UInt8) (s' : Session σ) : Prop where
  | waits {c : HttpContext} {left : List UInt8} (free : ¬Stuck s.context) (isOpen : Open s')
      (reads : Reads {} (s.since ++ bytes) .needsMore c left)
      (since : s'.since = s.since ++ bytes) (journal : s'.journal = s.journal)
  | refuses {c : HttpContext} {left : List UInt8} (free : ¬Stuck s.context) (isOpen : Open s')
      (reads : Reads {} (s.since ++ bytes) .error c left) (since : s'.since = s.since ++ bytes)
      (journal : s'.journal = s.journal ++ [.badRequest]) (context : s'.context.untimed = c)
  | answers {request : HttpRequest} {response : HttpResponse} (free : ¬Stuck s.context)
      (isOpen : Open s')
      (reads : Reads {} (s.since ++ bytes) .gotAll ⟨.kGotAll, request.setReceiveTime 0⟩ s'.since)
      (journal : s'.journal = s.journal ++ [.called request, .answered response])
      (context : s'.context = {})
  | trips (stuck : Stuck s.context) (failed : s'.fault = some "method_ == kInvalid")
      (since : s'.since = s.since) (journal : s'.journal = s.journal)

theorem send_eq (s : Session σ) (message : List UInt8) :
    ∃ sent, s.send message = { s with sent } := by
  unfold Session.send
  split
  · exact ⟨_, rfl⟩
  · exact ⟨s.sent, rfl⟩

theorem shutdown_eq (s : Session σ) : ∃ state_, s.shutdown = { s with state_ } := by
  unfold Session.shutdown
  split
  · exact ⟨_, rfl⟩
  · exact ⟨s.state_, rfl⟩

theorem answer_eq (s : Session σ) (response : HttpResponse) :
    ∃ sent state_, s.answer response = .ok { s with
      sent, state_, journal := s.journal ++ [.answered response] } := by
  obtain ⟨empty, made, valid, -⟩ := Buffer.new_spec Buffer.kInitialSize
  obtain ⟨buf, appended, -, -⟩ := HttpResponse.appendAll_spec valid response.pieces
  obtain ⟨sent, sends⟩ := send_eq s buf.readable
  simp only [Session.answer, HttpResponse.appendToBuffer, made, appended, ok_bind, pure_eq_ok,
    sends]
  split
  · obtain ⟨state_, shuts⟩ := shutdown_eq ({ s with sent }.note (.answered response))
    exact ⟨sent, state_, congrArg _ shuts⟩
  · exact ⟨sent, s.state_, rfl⟩

theorem onRequest_eq (s : Session σ) (req : HttpRequest) :
    ∃ callback sent state_ response, server.onRequest s req = .ok { s with
      callback, sent, state_, journal := s.journal ++ [.called req, .answered response] } := by
  let result := server.httpCallback_ s.callback req { closeConnection_ := close req }
  have calls : server.onRequest s req =
      ({ s with callback := result.1 }.note (.called req)).answer result.2 := rfl
  obtain ⟨sent, state_, answered⟩ :=
    answer_eq ({ s with callback := result.1 }.note (.called req)) result.2
  refine ⟨result.1, sent, state_, result.2, ?_⟩
  rw [calls, answered]
  simp only [Session.note, List.append_assoc, List.singleton_append]

variable {server} {s s' : Session σ} {chunk : List UInt8 × Int}

theorem open_start (callback : σ) {b : Buffer} (valid : b.Valid) (empty : b.readable = []) :
    Open (onConnection callback b) := by
  refine ⟨rfl, valid, Or.inl ⟨Or.inl ⟨rfl, rfl⟩, ?_⟩⟩
  intro more v c' left reads
  simp only [onConnection, empty] at reads
  exact reads

theorem free_of_ready {c : HttpContext} (ready : Ready c) : ¬Stuck c := by
  rintro ⟨state, known⟩
  rcases ready with ⟨-, invalid⟩ | headers
  · exact known invalid
  · simp [state] at headers

section
variable {q : HttpContext.Parsing} {t : Int} {e : String}

theorem onMessage_waits (parsed : s.context.parseRequest s.inputBuffer_ t = .ok (some q))
    (verdict : q.verdict = .needsMore) :
    server.onMessage s t =
      .ok (some { s with context := q.context, inputBuffer_ := q.buf }) := by
  obtain ⟨ok, incomplete⟩ := verdict_needsMore.mp verdict
  simp only [onMessage, parsed, ok_bind, ok, if_true, incomplete, Bool.false_eq_true, if_false,
    pure_eq_ok]

theorem onMessage_refuses (parsed : s.context.parseRequest s.inputBuffer_ t = .ok (some q))
    (verdict : q.verdict = .error) (incomplete : q.context.gotAll = false) :
    ∃ sent state_, server.onMessage s t = .ok (some { s with
      context := q.context, inputBuffer_ := q.buf, sent, state_,
      journal := s.journal ++ [.badRequest] }) := by
  have failed : q.ok = false := by
    by_contra ok
    simp [HttpContext.Parsing.verdict, ok, incomplete] at verdict
  obtain ⟨sent, sends⟩ := send_eq { s with context := q.context, inputBuffer_ := q.buf }
    (ascii "HTTP/1.1 400 Bad Request\r\n\r\n")
  obtain ⟨state_, shuts⟩ := shutdown_eq
    { s with context := q.context, inputBuffer_ := q.buf, sent }
  refine ⟨sent, state_, ?_⟩
  simp only [onMessage, parsed, ok_bind, failed, Bool.false_eq_true, if_false, sends, shuts,
    Session.note, incomplete, pure_eq_ok]

theorem onMessage_answers (parsed : s.context.parseRequest s.inputBuffer_ t = .ok (some q))
    (verdict : q.verdict = .gotAll) :
    ∃ callback sent state_ response, server.onMessage s t = .ok (some { s with
      callback, context := {}, inputBuffer_ := q.buf, sent, state_, since := q.buf.readable,
      journal := s.journal ++ [.called q.context.request_, .answered response] }) := by
  obtain ⟨ok, complete⟩ := verdict_gotAll.mp verdict
  obtain ⟨callback, sent, state_, response, answered⟩ :=
    server.onRequest_eq { s with context := q.context, inputBuffer_ := q.buf } q.context.request_
  refine ⟨callback, sent, state_, response, ?_⟩
  simp only [onMessage, parsed, ok_bind, ok, if_true, complete, answered, pure_eq_ok,
    HttpContext.reset]

theorem onMessage_trips (failed : s.context.parseRequest s.inputBuffer_ t = .error e) :
    server.onMessage s t = .error e := by
  simp only [onMessage, failed]
  rfl

end

theorem step_spec (isOpen : Open s) (chunk : List UInt8 × Int) :
    ∃ s', server.machine.step s chunk = some s' ∧ Served s chunk.1 s' := by
  obtain ⟨running, valid, expects⟩ := isOpen
  obtain ⟨buf, appended, valid', content⟩ := Buffer.append_spec valid chunk.1
  let arrived : Session σ := { s with inputBuffer_ := buf, since := s.since ++ chunk.1 }
  rw [machine, faults.step_running running]
  simp only [handleRead, appended, ok_bind]
  rcases expects with ⟨ready, pending⟩ | ⟨stuck, -, i, ends, space⟩
  · have free := free_of_ready ready
    have ready' : Ready s.context.untimed := ready
    obtain ⟨v, c', left, reads⟩ := reads_total ready' buf.readable
    have unfinished : s.context.gotAll = false := by
      rcases ready with ⟨state, -⟩ | state <;> simp [HttpContext.gotAll, state]
    obtain ⟨q, ran, shows_⟩ := parseRequest_reads (t := chunk.2) valid' unfinished reads
    rw [content] at reads
    have whole := pending _ _ _ _ reads
    cases v with
    | needsMore =>
      rw [onMessage_waits ran shows_.verdict]
      refine ⟨_, rfl, .waits free ⟨running, shows_.valid, Or.inl ⟨?_, ?_⟩⟩ whole rfl rfl⟩
      · have ready : Ready q.context.untimed := by
          rw [shows_.context]
          exact ready_of_reads reads rfl
        exact ready
      · intro more v c'' left' next
        simp only [Faults.settle, shows_.context, shows_.readable] at next
        exact reads_continue whole rfl next
    | error =>
      have incomplete : q.context.gotAll = false := by
        have never := mt (gotAll_of_reads reads).mp (by decide)
        rw [← shows_.context] at never
        exact Bool.eq_false_iff.mpr never
      obtain ⟨sent, state_, refuses⟩ :=
        onMessage_refuses (s := arrived) ran shows_.verdict incomplete
      rw [refuses]
      obtain ⟨rfl, anew | ⟨stuck, line⟩⟩ := refused_context whole
      · rw [anew] at shows_
        refine ⟨_, rfl, .refuses free ⟨running, shows_.valid, Or.inl ⟨?_, ?_⟩⟩ whole
          rfl rfl (shows_.context.trans anew.symm)⟩
        · have ready : Ready q.context.untimed := by
            rw [shows_.context]
            exact Or.inl ⟨rfl, rfl⟩
          exact ready
        · intro more v c'' left' next
          simp only [Faults.settle, shows_.context, shows_.readable] at next
          exact next
      · refine ⟨_, rfl, .refuses free ⟨running, shows_.valid, Or.inr ⟨?_, ⟨_, _, whole⟩, ?_⟩⟩
          whole rfl rfl shows_.context⟩
        · rw [← shows_.context] at stuck
          exact stuck
        · simp only [Faults.settle, shows_.readable]
          exact line
    | gotAll =>
      obtain ⟨callback, sent, state_, response, answers⟩ :=
        onMessage_answers (s := arrived) ran shows_.verdict
      rw [answers]
      refine ⟨_, rfl, .answers free ⟨running, shows_.valid, Or.inl ⟨Or.inl ⟨rfl, rfl⟩, ?_⟩⟩ ?_ rfl rfl⟩
      · intro more v c'' left' next
        exact next
      · have state : q.context.state_ = .kGotAll :=
          of_decide_eq_true (verdict_gotAll.mp shows_.verdict).2
        rw [← shows_.context, ← shows_.readable, HttpContext.untimed, state] at whole
        exact whole
  · obtain ⟨ends', line, -⟩ := HttpContext.line_append ends chunk.1
    rw [← content] at ends' line
    have trips := parseRequest_trips (t := chunk.2) valid' stuck ends' (line ▸ space)
    rw [onMessage_trips trips]
    exact ⟨_, rfl, .trips stuck rfl rfl rfl⟩

theorem open_step (isOpen : Open s) (chunk : List UInt8 × Int) :
    ∃ s', server.machine.step s chunk = some s' ∧
      (¬Stuck s.context ∧ Open s' ∨ ¬¬Stuck s.context ∧ ¬s'.fault = none) := by
  obtain ⟨s', stepped, served⟩ := step_spec isOpen chunk
  refine ⟨s', stepped, ?_⟩
  cases served with
  | waits free isOpen' => exact Or.inl ⟨free, isOpen'⟩
  | refuses free isOpen' => exact Or.inl ⟨free, isOpen'⟩
  | answers free isOpen' => exact Or.inl ⟨free, isOpen'⟩
  | trips stuck failed => exact Or.inr ⟨not_not_intro stuck, by simp [failed]⟩

theorem open_of_run {chunks : List (List UInt8 × Int)} (isOpen : Open s)
    (ran : server.machine.run s chunks = some s')
    (running : s'.fault = none) : Open s' := by
  have kept : ∀ s chunk s', Open s ∨ ¬s.fault = none → server.machine.step s chunk = some s' →
      Open s' ∨ ¬s'.fault = none := by
    intro s chunk s' before stepped
    rcases before with isOpen | failed
    · obtain ⟨next, stepped', after⟩ := open_step isOpen chunk
      rw [stepped] at stepped'
      cases stepped'
      exact after.imp And.right And.right
    · rw [machine, faults.step_of_fault failed] at stepped
      cases stepped
  rcases server.machine.run_invariant kept (Or.inl isOpen) ran with isOpen' | failed
  · exact isOpen'
  · exact absurd running failed

variable (server) in
theorem unfailed_iff_within (isOpen : Open s) (chunks : List (List UInt8 × Int)) :
    (∃ s', server.machine.run s chunks = some s' ∧ s'.fault = none) ↔
      server.machine.Within (fun s _ => ¬Stuck s.context) s chunks := by
  have exact_ := server.machine.runs_iff_within (fun s _ => ¬Stuck s.context) Open
    (fun s => ¬s.fault = none) ?_ ?_ ?_ isOpen chunks
  · simpa only [not_not] using exact_
  · intro s isOpen
    exact not_not_intro isOpen.running
  · intro s chunk failed
    exact faults.step_of_fault failed
  · intro s chunk isOpen
    exact open_step isOpen chunk

end HttpServer
end Muduo
