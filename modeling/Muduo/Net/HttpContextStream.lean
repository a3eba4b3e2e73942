import Muduo.Net.HttpContext

/-!
A request head that arrives in chunks, each followed by a call of parseRequest until
one call fails or the head is complete. The parser takes whole lines, and a line that
has ended stays the same whatever comes behind it; so the calls together do what one
reading of the whole string does. The time of receipt is that of the chunk that ends
the request line and is left out.
-/
namespace Muduo
open Lib
namespace HttpContext
open Buffer (lineEnd lineEnd_fits lineEnd_append)

inductive Verdict where
  | error | gotAll | needsMore
  deriving DecidableEq, Repr

def untimed (c : HttpContext) : HttpContext := { c with request_ := c.request_.setReceiveTime 0 }

def Ready (c : HttpContext) : Prop :=
  (c.state_ = .kExpectRequestLine ∧ c.request_.method_ = .kInvalid) ∨ c.state_ = .kExpectHeaders

/-- How a context reads bytes, line by line: the verdict, the context after it and what
    it leaves. -/
inductive Reads : HttpContext → List UInt8 → Verdict → HttpContext → List UInt8 → Prop where
  | waits {c : HttpContext} {bytes : List UInt8} (ready : Ready c)
      (unended : lineEnd bytes = none) :
      Reads c bytes .needsMore c bytes
  | refused {c : HttpContext} {bytes : List UInt8} {i : Nat} {request : HttpRequest}
      (state : c.state_ = .kExpectRequestLine) (ends : lineEnd bytes = some i)
      (processed : processRequestLine c.request_ (bytes.take i) = .ok (request, false)) :
      Reads c bytes .error { c with request_ := request } bytes
  | requestLine {c c' : HttpContext} {bytes left : List UInt8} {v : Verdict} {i : Nat}
      {request : HttpRequest} (state : c.state_ = .kExpectRequestLine) (ends : lineEnd bytes = some i)
      (processed : processRequestLine c.request_ (bytes.take i) = .ok (request, true))
      (further : Reads ⟨.kExpectHeaders, request⟩ (bytes.drop (i + 2)) v c' left) :
      Reads c bytes v c' left
  | header {c c' : HttpContext} {bytes left : List UInt8} {v : Verdict} {i : Nat}
      (state : c.state_ = .kExpectHeaders) (ends : lineEnd bytes = some i)
      (colon : 58 ∈ bytes.take i)
      (further : Reads
        { c with request_ := c.request_.addHeader (bytes.take i) ((bytes.take i).idxOf 58) }
        (bytes.drop (i + 2)) v c' left) :
      Reads c bytes v c' left
  | lastLine {c : HttpContext} {bytes : List UInt8} {i : Nat}
      (state : c.state_ = .kExpectHeaders) (ends : lineEnd bytes = some i)
      (colon : 58 ∉ bytes.take i) :
      Reads c bytes .gotAll { c with state_ := .kGotAll } (bytes.drop (i + 2))

section
variable {c c' : HttpContext} {bytes left more : List UInt8} {v : Verdict} {i : Nat}

theorem reads_total (ready : Ready c) (bytes : List UInt8) :
    ∃ v c' left, Reads c bytes v c' left := by
  induction size : bytes.length using Nat.strongRecOn generalizing c bytes with
  | ind n ih =>
    cases ends : lineEnd bytes with
    | none => exact ⟨_, _, _, .waits ready ends⟩
    | some i =>
      have fits := lineEnd_fits ends
      have shorter : (bytes.drop (i + 2)).length < n := by
        rw [List.length_drop]
        omega
      rcases ready with ⟨state, invalid⟩ | state
      · obtain ⟨request, ok, processed⟩ := processRequestLine_invalid invalid (bytes.take i)
        cases ok with
        | false => exact ⟨_, _, _, .refused state ends processed⟩
        | true =>
          have ready : Ready ⟨.kExpectHeaders, request⟩ := Or.inr rfl
          obtain ⟨v, c', left, further⟩ := ih _ shorter ready _ rfl
          exact ⟨v, c', left, .requestLine state ends processed further⟩
      · by_cases colon : 58 ∈ bytes.take i
        · have ready : Ready { c with
              request_ := c.request_.addHeader (bytes.take i) ((bytes.take i).idxOf 58) } :=
            Or.inr state
          obtain ⟨v, c', left, further⟩ := ih _ shorter ready _ rfl
          exact ⟨v, c', left, .header state ends colon further⟩
        · exact ⟨_, _, _, .lastLine state ends colon⟩

theorem ready_of_reads (reads : Reads c bytes v c' left) (waiting : v = .needsMore) : Ready c' := by
  induction reads with
  | waits ready _ => exact ready
  | refused => cases waiting
  | requestLine _ _ _ _ ih => exact ih waiting
  | header _ _ _ _ ih => exact ih waiting
  | lastLine => cases waiting

theorem gotAll_of_reads (reads : Reads c bytes v c' left) : c'.gotAll = true ↔ v = .gotAll := by
  induction reads with
  | waits ready _ => rcases ready with ⟨state, -⟩ | state <;> simp [gotAll, state]
  | refused state => simp [gotAll, state]
  | requestLine _ _ _ _ ih => exact ih
  | header _ _ _ _ ih => exact ih
  | lastLine => simp [gotAll]

theorem line_append (ends : lineEnd bytes = some i) (more : List UInt8) :
    lineEnd (bytes ++ more) = some i ∧ (bytes ++ more).take i = bytes.take i ∧
      (bytes ++ more).drop (i + 2) = bytes.drop (i + 2) ++ more := by
  have fits := lineEnd_fits ends
  exact ⟨lineEnd_append ends more, List.take_append_of_le_length (by omega),
    List.drop_append_of_le_length fits⟩

theorem reads_append {v' : Verdict} {c'' : HttpContext} {left' : List UInt8}
    (first : Reads c bytes v c' left)
    (goes_on : v = .needsMore → Reads c' (left ++ more) v' c'' left')
    (stopped : v ≠ .needsMore → v' = v ∧ c'' = c' ∧ left' = left ++ more) :
    Reads c (bytes ++ more) v' c'' left' := by
  induction first with
  | waits => exact goes_on rfl
  | refused state ends processed =>
    obtain ⟨rfl, rfl, rfl⟩ := stopped (by decide)
    obtain ⟨ends', line, -⟩ := line_append ends more
    exact .refused state ends' (line ▸ processed)
  | requestLine state ends processed further ih =>
    obtain ⟨ends', line, rest⟩ := line_append ends more
    refine .requestLine state ends' (line ▸ processed) ?_
    rw [rest]
    exact ih goes_on stopped
  | header state ends colon further ih =>
    obtain ⟨ends', line, rest⟩ := line_append ends more
    refine .header state ends' (line ▸ colon) ?_
    rw [line, rest]
    exact ih goes_on stopped
  | lastLine state ends colon =>
    obtain ⟨rfl, rfl, rfl⟩ := stopped (by decide)
    obtain ⟨ends', line, rest⟩ := line_append ends more
    rw [← rest]
    exact .lastLine state ends' (line ▸ colon)

theorem reads_continue {v' : Verdict} {c'' : HttpContext} {left' : List UInt8}
    (first : Reads c bytes v c' left) (waiting : v = .needsMore)
    (second : Reads c' (left ++ more) v' c'' left') : Reads c (bytes ++ more) v' c'' left' :=
  reads_append first (fun _ => second) fun stopped => absurd waiting stopped

theorem reads_stopped (first : Reads c bytes v c' left) (stopped : v ≠ .needsMore)
    (more : List UInt8) : Reads c (bytes ++ more) v c' (left ++ more) :=
  reads_append first (fun waiting => absurd waiting stopped) fun _ => ⟨rfl, rfl, rfl⟩

end

/-! parseRequest follows every reading. -/

def Parsing.verdict (p : Parsing) : Verdict :=
  if p.ok = false then .error else if p.context.gotAll then .gotAll else .needsMore

section
variable {p : Parsing} {c c' : HttpContext} {bytes left : List UInt8} {v : Verdict} {i : Nat}
variable {request : HttpRequest} {t : Int}

structure Shows (p : Parsing) (v : Verdict) (c : HttpContext) (bytes : List UInt8) : Prop where
  valid : p.buf.Valid
  readable : p.buf.readable = bytes
  context : p.context.untimed = c
  verdict : p.verdict = v

theorem shows_state (shows_ : Shows p v c bytes) : p.context.state_ = c.state_ := by
  rw [← shows_.context]
  rfl

theorem verdict_needsMore : p.verdict = .needsMore ↔ p.ok = true ∧ p.context.gotAll = false := by
  unfold Parsing.verdict
  cases p.ok with
  | false => simp
  | true => cases p.context.gotAll <;> simp

theorem verdict_gotAll : p.verdict = .gotAll ↔ p.ok = true ∧ p.context.gotAll = true := by
  unfold Parsing.verdict
  cases p.ok with
  | false => simp
  | true => cases p.context.gotAll <;> simp

theorem line_of_shows (shows_ : Shows p v c bytes) (ends : lineEnd bytes = some i) :
    p.buf.findCRLF = some (p.buf.peek + i) ∧
      window p.buf.buffer_ p.buf.peek (p.buf.peek + i) = bytes.take i ∧
      ∃ buf, p.buf.retrieveUntil (p.buf.peek + i + 2) = .ok buf ∧ buf.Valid ∧
        buf.readable = bytes.drop (i + 2) := by
  have valid := shows_.valid
  have length := Buffer.readable_length valid
  have fits := lineEnd_fits ends
  rw [shows_.readable] at length
  refine ⟨?_, ?_, ?_⟩
  · rw [Buffer.findCRLF_spec valid, shows_.readable, ends]
    rfl
  · rw [← shows_.readable]
    refine (take_window _ _ _ _ ?_).symm
    simp only [Buffer.readableBytes, Buffer.peek] at length ⊢
    omega
  · obtain ⟨buf, ran, valid', rest⟩ :=
      Buffer.retrieveUntil_spec valid (show i + 2 ≤ p.buf.readableBytes by omega)
    exact ⟨buf, ran, valid', by rw [rest, shows_.readable]⟩

theorem turn_waits (shows_ : Shows p v c bytes) (ready : Ready c) (unended : lineEnd bytes = none) :
    turn t p = .ok (p, false) := by
  have absent : p.buf.findCRLF = none := by
    rw [Buffer.findCRLF_spec shows_.valid, shows_.readable, unended]
    rfl
  have state := shows_state shows_
  rcases ready with ⟨expects, -⟩ | expects
  · rw [expects] at state
    simp only [turn, state, expectRequestLine, absent, pure_eq_ok]
  · rw [expects] at state
    simp only [turn, state, expectHeaders, absent, pure_eq_ok]

theorem processed_untimed {r : HttpRequest} {line : List UInt8} {ok : Bool}
    (processed : processRequestLine (r.setReceiveTime t) line = .ok (request, ok)) :
    ∃ request', processRequestLine r line = .ok (request', ok) ∧
      request'.setReceiveTime t = request := by
  rw [processRequestLine_setReceiveTime] at processed
  cases ran : processRequestLine r line with
  | error e =>
    rw [ran] at processed
    cases processed
  | ok q =>
    rw [ran] at processed
    cases processed
    exact ⟨_, rfl, rfl⟩

theorem turn_refused (shows_ : Shows p .needsMore c bytes) (state : c.state_ = .kExpectRequestLine)
    (ends : lineEnd bytes = some i)
    (processed : processRequestLine c.request_ (bytes.take i) = .ok (request, false)) :
    ∃ q, turn t p = .ok (q, false) ∧ Shows q .error { c with request_ := request } bytes := by
  obtain ⟨crlf, line, -⟩ := line_of_shows shows_ ends
  rw [← shows_.context] at processed
  obtain ⟨request', ran, same⟩ := processed_untimed processed
  refine ⟨⟨{ p.context with request_ := request' }, p.buf, false⟩, ?_, shows_.valid,
    shows_.readable, ?_, rfl⟩
  · rw [← shows_state shows_] at state
    simp only [turn, state, expectRequestLine, crlf, line, ran, ok_bind, pure_eq_ok]
    rfl
  · rw [← shows_.context, ← same]
    rfl

theorem turn_requestLine (shows_ : Shows p .needsMore c bytes)
    (state : c.state_ = .kExpectRequestLine) (ends : lineEnd bytes = some i)
    (processed : processRequestLine c.request_ (bytes.take i) = .ok (request, true)) :
    ∃ q, turn t p = .ok (q, true) ∧
      Shows q .needsMore ⟨.kExpectHeaders, request⟩ (bytes.drop (i + 2)) := by
  obtain ⟨crlf, line, buf, retrieved, valid, rest⟩ := line_of_shows shows_ ends
  rw [← shows_.context] at processed
  obtain ⟨request', ran, same⟩ := processed_untimed processed
  refine ⟨⟨⟨.kExpectHeaders, request'.setReceiveTime t⟩, buf, true⟩, ?_, valid, rest, ?_, rfl⟩
  · rw [← shows_state shows_] at state
    simp only [turn, state, expectRequestLine, crlf, line, ran, ok_bind, if_true, retrieved,
      pure_eq_ok]
  · rw [← same]
    rfl

theorem turn_header (shows_ : Shows p .needsMore c bytes) (state : c.state_ = .kExpectHeaders)
    (ends : lineEnd bytes = some i) (colon : 58 ∈ bytes.take i) :
    ∃ q, turn t p = .ok (q, true) ∧ Shows q .needsMore
      { c with request_ := c.request_.addHeader (bytes.take i) ((bytes.take i).idxOf 58) }
      (bytes.drop (i + 2)) := by
  obtain ⟨crlf, line, buf, retrieved, valid, rest⟩ := line_of_shows shows_ ends
  have found : (bytes.take i).idxOf 58 ≠ (bytes.take i).length := by
    intro absent
    exact List.idxOf_eq_length_iff.mp absent colon
  refine ⟨{ p with
    context := { p.context with
      request_ := p.context.request_.addHeader (bytes.take i) ((bytes.take i).idxOf 58) }
    buf := buf }, ?_, valid, rest, ?_, shows_.verdict⟩
  · rw [← shows_state shows_] at state
    simp only [turn, state, expectHeaders, crlf, line, if_pos found, retrieved, ok_bind, pure_eq_ok]
  · rw [← shows_.context]
    rfl

theorem turn_lastLine (shows_ : Shows p .needsMore c bytes) (state : c.state_ = .kExpectHeaders)
    (ends : lineEnd bytes = some i) (colon : 58 ∉ bytes.take i) :
    ∃ q, turn t p = .ok (q, false) ∧
      Shows q .gotAll { c with state_ := .kGotAll } (bytes.drop (i + 2)) := by
  obtain ⟨crlf, line, buf, retrieved, valid, rest⟩ := line_of_shows shows_ ends
  have absent : ¬(bytes.take i).idxOf 58 ≠ (bytes.take i).length :=
    not_not_intro (List.idxOf_eq_length_iff.mpr colon)
  refine ⟨{ p with context := { p.context with state_ := .kGotAll }, buf := buf }, ?_, valid, rest,
    ?_, ?_⟩
  · rw [← shows_state shows_] at state
    simp only [turn, state, expectHeaders, crlf, line, if_neg absent, retrieved, ok_bind,
      pure_eq_ok]
  · rw [← shows_.context]
    rfl
  · simp [Parsing.verdict, gotAll, (verdict_needsMore.mp shows_.verdict).1]

theorem half_drop_lt {fuel : Nat} (ends : lineEnd bytes = some i)
    (enough : bytes.length / 2 < fuel) : (bytes.drop (i + 2)).length / 2 < fuel - 1 := by
  have fits := lineEnd_fits ends
  rw [List.length_drop]
  omega

theorem whileLoop_reads (reads : Reads c bytes v c' left) {fuel : Nat}
    (shows_ : Shows p .needsMore c bytes) (enough : bytes.length / 2 < fuel) :
    ∃ q, whileLoop (turn t) fuel p = .ok (some q) ∧ Shows q v c' left := by
  have positive : 0 < fuel := by omega
  induction reads generalizing p fuel with
  | waits ready unended =>
    exact ⟨p, whileLoop_stop positive (turn_waits shows_ ready unended), shows_⟩
  | refused state ends processed =>
    obtain ⟨q, ran, shows'⟩ := turn_refused shows_ state ends processed
    exact ⟨q, whileLoop_stop positive ran, shows'⟩
  | requestLine state ends processed further ih =>
    obtain ⟨q, ran, shows'⟩ := turn_requestLine shows_ state ends processed
    have fewer := half_drop_lt ends enough
    rw [whileLoop_again positive ran]
    exact ih shows' fewer (Nat.zero_lt_of_lt fewer)
  | header state ends colon further ih =>
    obtain ⟨q, ran, shows'⟩ := turn_header shows_ state ends colon
    have fewer := half_drop_lt ends enough
    rw [whileLoop_again positive ran]
    exact ih shows' fewer (Nat.zero_lt_of_lt fewer)
  | lastLine state ends colon =>
    obtain ⟨q, ran, shows'⟩ := turn_lastLine shows_ state ends colon
    exact ⟨q, whileLoop_stop positive ran, shows'⟩

theorem parseRequest_reads {buf : Buffer} (valid : buf.Valid) (unfinished : c.gotAll = false)
    (reads : Reads c.untimed buf.readable v c' left) :
    ∃ q, c.parseRequest buf t = .ok (some q) ∧ Shows q v c' left := by
  refine whileLoop_reads reads ⟨valid, rfl, rfl, verdict_needsMore.mpr ⟨rfl, unfinished⟩⟩ ?_
  rw [Buffer.readable_length valid]
  exact Nat.lt_succ_self _

theorem reads_unique {v₁ v₂ : Verdict} {c₁ c₂ : HttpContext} {left₁ left₂ : List UInt8}
    (unfinished : c.gotAll = false) (reads₁ : Reads c.untimed bytes v₁ c₁ left₁)
    (reads₂ : Reads c.untimed bytes v₂ c₂ left₂) : v₁ = v₂ ∧ c₁ = c₂ ∧ left₁ = left₂ := by
  obtain ⟨b, valid, rfl⟩ := Buffer.exists_readable bytes
  obtain ⟨q₁, ran₁, shows₁⟩ := parseRequest_reads (t := 0) valid unfinished reads₁
  obtain ⟨q₂, ran₂, shows₂⟩ := parseRequest_reads (t := 0) valid unfinished reads₂
  rw [ran₁] at ran₂
  cases ran₂
  exact ⟨shows₁.verdict.symm.trans shows₂.verdict, shows₁.context.symm.trans shows₂.context,
    shows₁.readable.symm.trans shows₂.readable⟩

end

/-- A chunk and its time of receipt. The chunk is appended, and parseRequest is called
    unless it failed before or the head is complete. -/
def receive (p : Parsing) (chunk : List UInt8 × Int) : Checked (Option Parsing) := do
  let buf ← p.buf.append chunk.1
  if p.ok = true ∧ p.context.gotAll = false then
    p.context.parseRequest buf chunk.2
  else
    pure (some { p with buf := buf })

def receiveAll (chunks : List (List UInt8 × Int)) (p : Parsing) : Checked (Option Parsing) :=
  forEach receive chunks p

def arrived (chunks : List (List UInt8 × Int)) : List UInt8 := (chunks.map Prod.fst).flatten

structure Received (c : HttpContext) (bytes : List UInt8) (p : Parsing) : Prop where
  valid : p.buf.Valid
  reads : Reads c bytes p.verdict p.context.untimed p.buf.readable

section
variable {p : Parsing} {c : HttpContext} {bytes : List UInt8}

theorem receive_spec (received : Received c bytes p) (chunk : List UInt8 × Int) :
    ∃ q, receive p chunk = .ok (some q) ∧ Received c (bytes ++ chunk.1) q := by
  obtain ⟨valid, reads⟩ := received
  obtain ⟨buf, appended, valid', content⟩ := Buffer.append_spec valid chunk.1
  by_cases waiting : p.verdict = .needsMore
  · have calls := verdict_needsMore.mp waiting
    obtain ⟨v, c', left, next⟩ := reads_total (ready_of_reads reads waiting) buf.readable
    obtain ⟨q, ran, shows_⟩ := parseRequest_reads (t := chunk.2) valid' calls.2 next
    refine ⟨q, ?_, shows_.valid, ?_⟩
    · simp only [receive, appended, ok_bind, if_pos calls, ran]
    · rw [shows_.verdict, shows_.context, shows_.readable]
      rw [content] at next
      exact reads_continue reads waiting next
  · have calls := fun both => waiting (verdict_needsMore.mpr both)
    refine ⟨{ p with buf := buf }, ?_, valid', ?_⟩
    · simp only [receive, appended, ok_bind, if_neg calls, pure_eq_ok]
    · simp only [content]
      exact reads_stopped reads waiting chunk.1

theorem receiveAll_spec (chunks : List (List UInt8 × Int)) (received : Received c [] p) :
    ∃ q, receiveAll chunks p = .ok (some q) ∧ Received c (arrived chunks) q := by
  have step : ∀ past p chunk, Received c (arrived past) p →
      ∃ q, receive p chunk = .ok (some q) ∧ Received c (arrived (past ++ [chunk])) q := by
    intro past p chunk received
    have more : arrived (past ++ [chunk]) = arrived past ++ chunk.1 := by simp [arrived]
    rw [more]
    exact receive_spec received chunk
  exact forEach_rule step [] chunks received

theorem received_nothing {b : Buffer} (valid : b.Valid) (empty : b.readable = []) :
    Received {} [] ⟨{}, b, true⟩ := by
  refine ⟨valid, ?_⟩
  simp only [empty]
  exact .waits (Or.inl ⟨rfl, rfl⟩) rfl

end

/-- However a byte string is cut into chunks, and whenever they come, the parser ends
    with the same verdict, the same context but for the time of receipt, and the same
    unread bytes. -/
theorem parseRequest_ignores_chunks {b₁ b₂ : Buffer} (valid₁ : b₁.Valid) (valid₂ : b₂.Valid)
    (empty₁ : b₁.readable = []) (empty₂ : b₂.readable = [])
    {chunks₁ chunks₂ : List (List UInt8 × Int)} (same : arrived chunks₁ = arrived chunks₂) :
    ∃ p₁ p₂, receiveAll chunks₁ ⟨{}, b₁, true⟩ = .ok (some p₁) ∧
      receiveAll chunks₂ ⟨{}, b₂, true⟩ = .ok (some p₂) ∧
      p₁.verdict = p₂.verdict ∧ p₁.context.untimed = p₂.context.untimed ∧
      p₁.buf.readable = p₂.buf.readable := by
  obtain ⟨p₁, ran₁, received₁⟩ := receiveAll_spec chunks₁ (received_nothing valid₁ empty₁)
  obtain ⟨p₂, ran₂, received₂⟩ := receiveAll_spec chunks₂ (received_nothing valid₂ empty₂)
  have reads₁ := received₁.reads
  rw [same] at reads₁
  obtain ⟨verdict, context, left⟩ := reads_unique (c := {}) rfl reads₁ received₂.reads
  exact ⟨p₁, p₂, ran₁, ran₂, verdict, context, left⟩

def getChunks : List (List UInt8 × Int) :=
  [(ascii "GE", 1), (ascii "T /a?b HTTP/1.1" ++ [13], 2), ([10] ++ ascii "Host:  muduo " ++ [13], 3),
    ([10, 13], 4), ([10] ++ ascii "POST", 5), (ascii " /", 6)]

def emptyBuffer : Buffer := ⟨List.replicate 8 0, 8, 8⟩

theorem parseRequest_ignores_chunks_of_get :
    ∃ p₁ p₂, emptyBuffer.Valid ∧ emptyBuffer.readable = [] ∧
      receiveAll getChunks ⟨{}, emptyBuffer, true⟩ = .ok (some p₁) ∧
      receiveAll [(arrived getChunks, 7)] ⟨{}, emptyBuffer, true⟩ = .ok (some p₂) ∧
      p₁.verdict = p₂.verdict ∧ p₁.context.untimed = p₂.context.untimed ∧
      p₁.buf.readable = p₂.buf.readable ∧
      p₁.verdict = .gotAll ∧ p₁.context.request_.headers_ (ascii "Host") = some (ascii "muduo") ∧
      p₁.buf.readable = ascii "POST /" := by
  have valid : emptyBuffer.Valid := ⟨by decide, by decide, by decide⟩
  have empty : emptyBuffer.readable = [] := by decide
  have same : arrived getChunks = arrived [(arrived getChunks, 7)] := by decide
  obtain ⟨p₁, p₂, ran₁, ran₂, verdict, context, left⟩ :=
    parseRequest_ignores_chunks valid valid empty empty same
  have shown : (receiveAll getChunks ⟨{}, emptyBuffer, true⟩).toOption.join.map (fun p =>
      (p.verdict, p.context.request_.headers_ (ascii "Host"), p.buf.readable)) =
      some (.gotAll, some (ascii "muduo"), ascii "POST /") := by
    decide +kernel
  rw [ran₁] at shown
  simp only [Except.toOption, Option.join_some, Option.map_some, Option.some.injEq,
    Prod.mk.injEq] at shown
  exact ⟨p₁, p₂, valid, empty, ran₁, ran₂, verdict, context, left, shown⟩

end HttpContext
end Muduo
