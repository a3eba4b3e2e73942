import Muduo.Net.HttpServerRuns

/-!
The loop of parseRequest has no exit in kExpectBody and kGotAll. HttpServer never calls it
there: what is complete is reset before onMessage returns, and nothing sets kExpectBody. In
the other two states a turn that goes on takes a line with its CRLF out of the buffer. The
loop then ends in one of two ways: parseRequest returns, or the assertion of setMethod
fails, which it does for a line behind a method that was taken over before.
-/
namespace Muduo
open Lib
namespace HttpContext
open Buffer (lineEnd lineEnd_fits)
variable {c : HttpContext} {p q : Parsing} {t : Int} {buf : Buffer}

def Expecting (c : HttpContext) : Prop :=
  c.state_ = .kExpectRequestLine ∨ c.state_ = .kExpectHeaders

/-- The loop comes to setMethod, and the method is known. -/
def Trips (c : HttpContext) (bytes : List UInt8) : Prop :=
  Stuck c ∧ ∃ i, lineEnd bytes = some i ∧ 32 ∈ bytes.take i

theorem retrieveUntil_line {crlf : Nat} {rest : Buffer} (valid : buf.Valid)
    (found : buf.findCRLF = some crlf) (retrieved : buf.retrieveUntil (crlf + 2) = .ok rest) :
    rest.Valid ∧ rest.readableBytes + 2 ≤ buf.readableBytes := by
  rw [Buffer.findCRLF_spec valid] at found
  obtain ⟨i, ends, rfl⟩ := Option.map_eq_some_iff.mp found
  have fits := lineEnd_fits ends
  rw [Buffer.readable_length valid] at fits
  rw [Nat.add_assoc] at retrieved
  obtain ⟨valid', left⟩ := holds_of_ok (Buffer.retrieveUntil_spec valid fits) retrieved
  refine ⟨valid', ?_⟩
  rw [← Buffer.readable_length valid', left, List.length_drop, Buffer.readable_length valid]
  omega

theorem turn_takes (valid : p.buf.Valid) (expecting : Expecting p.context)
    (going : turn t p = .ok (q, true)) :
    q.buf.Valid ∧ q.buf.readableBytes + 2 ≤ p.buf.readableBytes ∧ Expecting q.context := by
  rcases expecting with state | state
  · simp only [turn, state, expectRequestLine] at going
    split at going
    · rename_i crlf found
      obtain ⟨⟨request, ok⟩, -, going⟩ := bind_eq_ok.mp going
      cases ok with
      | false => cases going
      | true =>
        obtain ⟨rest, retrieved, going⟩ := bind_eq_ok.mp going
        cases going
        obtain ⟨valid', shorter⟩ := retrieveUntil_line valid found retrieved
        exact ⟨valid', shorter, Or.inr rfl⟩
    · cases going
  · simp only [turn, state, expectHeaders] at going
    split at going
    · rename_i crlf found
      split at going
      · obtain ⟨rest, retrieved, going⟩ := bind_eq_ok.mp going
        cases going
        obtain ⟨valid', shorter⟩ := retrieveUntil_line valid found retrieved
        exact ⟨valid', shorter, Or.inr rfl⟩
      · obtain ⟨rest, -, going⟩ := bind_eq_ok.mp going
        cases going
    · cases going

theorem parseRequest_ends (valid : buf.Valid) (expecting : Expecting c) (t : Int) :
    c.parseRequest buf t ≠ .ok none := by
  refine whileLoop_ends (fun p => p.buf.Valid ∧ Expecting p.context)
    (fun p => p.buf.readableBytes / 2) ?_ ⟨valid, expecting⟩ (Nat.lt_succ_self _)
  intro p q ready going
  obtain ⟨valid', shorter, expecting'⟩ := turn_takes ready.1 ready.2 going
  exact ⟨⟨valid', expecting'⟩, by omega⟩

theorem ready_or_stuck (expecting : Expecting c) : Ready c ∨ Stuck c := by
  rcases expecting with state | state
  · by_cases known : c.request_.method_ = .kInvalid
    · exact Or.inl (Or.inl ⟨state, known⟩)
    · exact Or.inr ⟨state, known⟩
  · exact Or.inl (Or.inr state)

theorem expecting_of_ready (ready : Ready c) : Expecting c := by
  rcases ready with ⟨state, -⟩ | state
  · exact Or.inl state
  · exact Or.inr state

theorem processRequestLine_spaceless {r : HttpRequest} {line : List UInt8} (spaceless : 32 ∉ line) :
    processRequestLine r line = .ok (r, false) := by
  have absent : ¬line.idxOf 32 ≠ line.length :=
    not_not_intro (List.idxOf_eq_length_iff.mpr spaceless)
  simp only [processRequestLine, if_neg absent, pure_eq_ok]

theorem parseRequest_of_stuck (valid : buf.Valid) (stuck : Stuck c)
    (untouched : ∀ i, lineEnd buf.readable = some i → 32 ∉ buf.readable.take i) :
    ∃ q, c.parseRequest buf t = .ok (some q) := by
  have shows_ : Shows ⟨c, buf, true⟩ (Parsing.verdict ⟨c, buf, true⟩) c.untimed buf.readable :=
    ⟨valid, rfl, rfl, rfl⟩
  cases ends : lineEnd buf.readable with
  | none =>
    have absent : buf.findCRLF = none := by
      rw [Buffer.findCRLF_spec valid, ends]
      rfl
    have stops : turn t ⟨c, buf, true⟩ = .ok (⟨c, buf, true⟩, false) := by
      simp only [turn, stuck.1, expectRequestLine, absent, pure_eq_ok]
    exact ⟨_, whileLoop_stop (Nat.succ_pos _) stops⟩
  | some i =>
    obtain ⟨crlf, text, -⟩ := line_of_shows shows_ ends
    have spaceless := processRequestLine_spaceless (r := c.request_) (untouched i ends)
    have stops : turn t ⟨c, buf, true⟩ =
        .ok (⟨⟨.kExpectRequestLine, c.request_⟩, buf, false⟩, false) := by
      simp only [turn, stuck.1, expectRequestLine, crlf, text, spaceless, ok_bind, pure_eq_ok,
        Bool.false_eq_true, if_false]
    exact ⟨_, whileLoop_stop (Nat.succ_pos _) stops⟩

theorem parseRequest_returns_iff (valid : buf.Valid) (expecting : Expecting c) (t : Int) :
    (∃ q, c.parseRequest buf t = .ok (some q)) ↔ ¬Trips c buf.readable := by
  constructor
  · rintro ⟨q, returned⟩ ⟨stuck, i, ends, space⟩
    rw [parseRequest_trips valid stuck ends space] at returned
    cases returned
  · intro free
    rcases ready_or_stuck expecting with ready | stuck
    · have ready' : Ready c.untimed := ready
      have unfinished : c.gotAll = false := by
        rcases expecting with state | state <;> simp [gotAll, state]
      obtain ⟨v, c', left, reads⟩ := reads_total ready' buf.readable
      obtain ⟨q, ran, -⟩ := parseRequest_reads (t := t) valid unfinished reads
      exact ⟨q, ran⟩
    · apply parseRequest_of_stuck valid stuck
      intro i ends space
      exact free ⟨stuck, i, ends, space⟩

end HttpContext

namespace HttpServer
open HttpContext (Stuck Expecting Trips turn expecting_of_ready parseRequest_ends
  parseRequest_returns_iff turn_takes)
variable {σ : Type} {server : HttpServer σ} {b : Buffer}
variable {s s' : Session σ} {chunks : List (List UInt8 × Int)}

theorem expecting_of_open (isOpen : Open s) : Expecting s.context := by
  rcases isOpen.expects with ⟨ready, -⟩ | ⟨stuck, -⟩
  · exact expecting_of_ready ready
  · exact Or.inl stuck.1

variable (server) in
/-- Every call of parseRequest is made in a state with an exit and ends within a turn for
    each line that the buffer can hold and one more, each turn but the last taking two bytes
    or more. All calls of a run return exactly when none is made to a stuck context. -/
theorem parse_loop_ends (valid : b.Valid) (empty : b.readable = []) (callback : σ) :
    (∀ chunks s, server.machine.run (onConnection callback b) chunks = some s → s.fault = none →
      s.context.state_ = .kExpectRequestLine ∨ s.context.state_ = .kExpectHeaders) ∧
    (∀ (c : HttpContext) (buf : Buffer) (t : Int), buf.Valid → Expecting c →
      c.parseRequest buf t ≠ .ok none ∧
      ((∃ q, c.parseRequest buf t = .ok (some q)) ↔ ¬Trips c buf.readable)) ∧
    (∀ (p q : HttpContext.Parsing) (t : Int), p.buf.Valid → Expecting p.context →
      turn t p = .ok (q, true) → q.buf.readableBytes + 2 ≤ p.buf.readableBytes) ∧
    ∀ chunks, (∃ s, server.machine.run (onConnection callback b) chunks = some s ∧ s.fault = none) ↔
      server.machine.Within (fun s _ => ¬Stuck s.context) (onConnection callback b) chunks := by
  have start : Open (onConnection callback b) := open_start callback valid empty
  refine ⟨?_, ?_, ?_, ?_⟩
  · intro chunks s ran running
    exact expecting_of_open (open_of_run start ran running)
  · intro c buf t valid expecting
    exact ⟨parseRequest_ends valid expecting t, parseRequest_returns_iff valid expecting t⟩
  · intro p q t valid expecting going
    exact (turn_takes valid expecting going).2.1
  · exact server.unfailed_iff_within start

/-- A head in two chunks, and the state that parseRequest is called in for the second. -/
theorem parse_loop_ends_of_get : ∃ s, plainServer.machine.run plainStart
      [((HttpContext.getHead.bytes).take 20, 1)] = some s ∧
    (s.context.state_ = .kExpectRequestLine ∨ s.context.state_ = .kExpectHeaders) ∧
    ∃ s', plainServer.machine.run plainStart [((HttpContext.getHead.bytes).take 20, 1),
      ((HttpContext.getHead.bytes).drop 20, 2)] = some s' ∧ s'.fault = none := by
  have valid : HttpContext.emptyBuffer.Valid := ⟨by decide, by decide, by decide⟩
  have ends := plainServer.parse_loop_ends valid (by decide) ()
  have ran : (plainServer.machine.run plainStart
      [((HttpContext.getHead.bytes).take 20, 1)]).map Session.fault = some none := by decide +kernel
  obtain ⟨s, run, running⟩ := Option.map_eq_some_iff.mp ran
  have within : plainServer.machine.Within (fun s _ => ¬Stuck s.context) plainStart
      [((HttpContext.getHead.bytes).take 20, 1), ((HttpContext.getHead.bytes).drop 20, 2)] :=
    plainServer.machine.within_of_check (by decide +kernel)
  exact ⟨s, run, ends.1 _ s run running, (ends.2.2.2 _).mpr within⟩

def parseNext (s : Session σ) (chunk : List UInt8 × Int) :
    Checked (Option HttpContext.Parsing) := do
  let buf ← s.inputBuffer_.append chunk.1
  s.context.parseRequest buf chunk.2

theorem parse_loop_aborts : ∃ s, plainServer.machine.run plainStart
      [(ascii "GET / HTTP/2.0\r\n", 1)] = some s ∧ s.fault = none ∧
    s.context.state_ = .kExpectRequestLine ∧
    (parseNext s ([120], 2)).map (fun _ => ()) = .error "method_ == kInvalid" := by
  have ran : (plainServer.machine.run plainStart [(ascii "GET / HTTP/2.0\r\n", 1)]).map
      (fun s => (s.fault, s.context.state_, (parseNext s ([120], 2)).map fun _ => ())) =
      some (none, .kExpectRequestLine, .error "method_ == kInvalid") := by decide +kernel
  obtain ⟨s, run, result⟩ := Option.map_eq_some_iff.mp ran
  simp only [Prod.mk.injEq] at result
  exact ⟨s, run, result⟩

end HttpServer
end Muduo
