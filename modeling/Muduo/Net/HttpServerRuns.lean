import Muduo.Net.HttpGrammar
import Muduo.Net.HttpServerSpec

/-!
Whole runs of one connection of the HttpServer. onMessage parses at most one request in
each call, so that all requests of a stream are answered when no chunk completes two of
them. A refused request line is read again with the next chunk, and trips the assertion
of setMethod if its method was known. After a response that closes the connection a
request may still be answered; after a 400 none is.
-/
namespace Muduo
open Lib
namespace HttpServer
open HttpContext (Head Stuck Reads reads_head head_of_reads reads_unique reads_stopped oneLine_nil
  arrived getHead requestLine ready_of_reads gotAll_of_reads reads_refused idxOf_cut ends_line
  processRequestLine_refused processRequestLine_invalid processRequestLine_requestLine
  requestLine_of_processRequestLine)
open HttpRequest (methodString)
open Buffer (OneLine kCRLF)
variable {σ : Type} {server : HttpServer σ} {callback : σ} {b : Buffer} {s s' t : Session σ}
  {chunk : List UInt8 × Int} {chunks : List (List UInt8 × Int)} {bytes left : List UInt8}

/-! The assertion of setMethod. -/

/-- The bytes begin with a line that names a known method and is no request line. -/
def KnownRefused (bytes : List UInt8) : Prop :=
  ∃ method rest behind, method ≠ .kInvalid ∧ OneLine (methodString method ++ 32 :: rest) ∧
    bytes = methodString method ++ 32 :: rest ++ kCRLF ++ behind ∧
    ∀ method' target version, method' ≠ .kInvalid → 32 ∉ target → version ≠ .kUnknown →
      methodString method ++ 32 :: rest ≠ requestLine method' target version

theorem stuck_iff_refused {v : HttpContext.Verdict} {c : HttpContext}
    (reads : Reads {} bytes v c left) : Stuck c ↔ KnownRefused bytes := by
  constructor
  · intro stuck
    cases v with
    | needsMore => exact absurd stuck (free_of_ready (ready_of_reads reads rfl))
    | gotAll =>
      have complete := (gotAll_of_reads reads).mpr rfl
      simp [HttpContext.gotAll, stuck.1] at complete
    | error =>
      obtain ⟨-, i, request, ends, processed, rfl, -⟩ := reads_refused reads
      rcases processRequestLine_refused rfl processed with ⟨rfl, -⟩ | ⟨-, space, known⟩
      · exact absurd rfl stuck.2
      · obtain ⟨m, rest, cut, spaceless⟩ := List.eq_append_cons_of_mem space
        obtain ⟨oneLine, split⟩ := Buffer.lineEnd_split ends
        rw [cut, idxOf_cut spaceless, List.take_left] at known
        have name := HttpRequest.methodString_methodOf known
        rw [cut, ← name] at oneLine split processed
        refine ⟨_, rest, _, known, oneLine, split, ?_⟩
        intro method' target version known' spaceless' stated same
        rw [same, processRequestLine_requestLine rfl known' spaceless' stated] at processed
        cases processed
  · rintro ⟨method, rest, behind, known, oneLine, rfl, other⟩
    obtain ⟨request, ok, processed⟩ := processRequestLine_invalid (r := {}) rfl
      (methodString method ++ 32 :: rest)
    cases ok with
    | true =>
      obtain ⟨method', target, version, known', spaceless, stated, same, -⟩ :=
        requestLine_of_processRequestLine rfl processed
      exact absurd same (other method' target version known' spaceless stated)
    | false =>
      obtain ⟨ends, first, -⟩ := ends_line oneLine behind
      have again : Reads {} (methodString method ++ 32 :: rest ++ kCRLF ++ behind) .error
          ⟨.kExpectRequestLine, request⟩ _ := .refused rfl ends (first.symm ▸ processed)
      obtain ⟨-, same, -⟩ := reads_unique (c := {}) rfl reads again
      rw [same]
      rcases processRequestLine_refused rfl processed with ⟨-, invalid⟩ | ⟨known', -⟩
      · have unknown := invalid (by simp)
        rw [idxOf_cut (HttpRequest.methodString_spaceless method), List.take_left,
          HttpRequest.methodOf_methodString known] at unknown
        exact absurd unknown known
      · exact ⟨rfl, known'⟩

theorem stuck_served (served : Served s bytes s') (running : s'.fault = none) :
    Stuck s'.context ↔ KnownRefused (s.since ++ bytes) := by
  cases served with
  | waits free isOpen reads since =>
    rw [← stuck_iff_refused reads]
    have free' := free_of_ready (ready_of_reads reads rfl)
    refine iff_of_false ?_ free'
    intro stuck
    rcases isOpen.expects with ⟨ready, -⟩ | ⟨-, ⟨c, left, refused⟩, -⟩
    · exact free_of_ready ready stuck
    · rw [since] at refused
      cases (reads_unique (c := {}) rfl reads refused).1
  | refuses free isOpen reads since journal context =>
    rw [← stuck_iff_refused reads, ← context]
    exact Iff.rfl
  | answers free isOpen reads journal context =>
    rw [← stuck_iff_refused reads, context]
    exact iff_of_false (by decide) (by simp [Stuck])
  | trips stuck failed => simp [running] at failed

/-- A connection takes all its chunks without a failed assertion exactly when none of them
    comes to a stuck context; and a call leaves the context stuck exactly when the bytes behind
    the last answered request begin with a line of a known method that is no request line. -/
theorem setMethod_safe_iff (valid : b.Valid) (empty : b.readable = []) (callback : σ)
    (chunks : List (List UInt8 × Int)) :
    ((∃ s, server.machine.run (onConnection callback b) chunks = some s ∧ s.fault = none) ↔
      server.machine.Within (fun s _ => ¬Stuck s.context) (onConnection callback b) chunks) ∧
    ∀ s chunk s', server.machine.run (onConnection callback b) chunks = some s →
      server.machine.step s chunk = some s' → s'.fault = none →
      (Stuck s'.context ↔ KnownRefused (s.since ++ chunk.1)) := by
  have start : Open (onConnection callback b) := open_start callback valid empty
  refine ⟨server.unfailed_iff_within start chunks, ?_⟩
  intro s chunk s' ran stepped running
  have isOpen := open_of_run start ran (faults.performed_of_step stepped).1
  obtain ⟨s'', stepped', served⟩ := step_spec isOpen chunk
  obtain rfl := Option.some.inj (stepped.symm.trans stepped')
  exact stuck_served served running

def plainServer : HttpServer Unit := ⟨fun callback _ response => (callback, response)⟩

def plainStart : Session Unit := onConnection () HttpContext.emptyBuffer

theorem setMethod_safe_of_refused_method :
    ∃ s, plainServer.machine.run plainStart
      [(ascii "FETCH / HTTP/1.1\r\n", 1), (getHead.bytes, 2)] = some s ∧ s.fault = none := by
  have valid : HttpContext.emptyBuffer.Valid := ⟨by decide, by decide, by decide⟩
  have within : plainServer.machine.Within (fun s _ => ¬Stuck s.context) plainStart
      [(ascii "FETCH / HTTP/1.1\r\n", 1), (getHead.bytes, 2)] :=
    plainServer.machine.within_of_check (by decide +kernel)
  exact (setMethod_safe_iff valid (by decide) () _).1.mpr within

/-- The version is refused, and the line is read again with the next byte. -/
theorem setMethod_trips :
    ∃ s, plainServer.machine.run plainStart
      [(ascii "GET / HTTP/2.0\r\n", 1), (ascii "x", 2)] = some s ∧
      s.fault = some "method_ == kInvalid" := by
  refine Option.map_eq_some_iff.mp ?_
  decide +kernel

/-! All requests of a stream. -/

def calls (journal : List Event) : List HttpRequest :=
  journal.filterMap fun
    | .called request => some request
    | _ => none

def stream (heads : List Head) : List UInt8 := heads.flatMap Head.bytes

/-- The bytes behind the last answered request do not hold two complete heads. -/
def OneHead (s : Session σ) (chunk : List UInt8 × Int) : Prop :=
  ∀ first second : Head, ¬first.bytes ++ second.bytes <+: s.since ++ chunk.1

theorem not_reads_nil {v : HttpContext.Verdict} {c : HttpContext} (reads : Reads {} [] v c left) :
    v = .needsMore := by
  cases reads with
  | waits => rfl
  | refused _ ends => cases ends
  | requestLine _ ends => cases ends
  | header state => cases state
  | lastLine state => cases state

section
variable {bytes more left : List UInt8} {c : HttpContext} {heads : List Head}

theorem reads_bytes (h : Head) (rest : List UInt8) :
    Reads {} (h.bytes ++ rest) .gotAll ⟨.kGotAll, h.request⟩ rest :=
  reads_head h oneLine_nil List.not_mem_nil rest

theorem stream_not_refused (part : bytes ++ more = stream heads) : ¬Refused bytes := by
  rintro ⟨c, left, reads⟩
  have whole := reads_stopped reads (by decide) more
  rw [part] at whole
  cases heads with
  | nil => exact absurd (not_reads_nil whole) (by decide)
  | cons h heads =>
    obtain ⟨verdict, -⟩ := reads_unique (c := {}) rfl whole (reads_bytes h (stream heads))
    cases verdict

theorem first_of_stream (part : bytes ++ more = stream heads)
    (reads : Reads {} bytes .gotAll c left) :
    ∃ h rest, heads = h :: rest ∧ c = ⟨.kGotAll, h.request⟩ ∧ bytes = h.bytes ++ left ∧
      left ++ more = stream rest := by
  have whole := reads_stopped reads (by decide) more
  rw [part] at whole
  cases heads with
  | nil => exact absurd (not_reads_nil whole) (by decide)
  | cons h rest =>
    obtain ⟨-, rfl, behind⟩ := reads_unique (c := {}) rfl whole (reads_bytes h (stream rest))
    refine ⟨h, rest, rfl, rfl, ?_, behind⟩
    have cut : bytes ++ more = h.bytes ++ left ++ more := by
      rw [part, List.append_assoc, behind]
      rfl
    exact List.append_cancel_right cut

end

structure Answering (heads : List Head) (ahead : List UInt8) (s : Session σ) : Prop where
  isOpen : Open s
  split : ∃ done rest, heads = done ++ rest ∧
    (calls s.journal).map (·.setReceiveTime 0) = done.map Head.request ∧
    s.since ++ ahead = stream rest
  incomplete : ∀ h : Head, ¬h.bytes <+: s.since

theorem answering_step {heads : List Head} {ahead : List UInt8}
    (answering : Answering heads (chunk.1 ++ ahead) s) (one : OneHead s chunk) :
    ∃ s', server.machine.step s chunk = some s' ∧ Answering heads ahead s' := by
  obtain ⟨isOpen, ⟨done, rest, rfl, called, part⟩, incomplete⟩ := answering
  obtain ⟨s', stepped, served⟩ : ∃ s', server.machine.step s chunk = some s' ∧ Served s chunk.1 s' :=
    step_spec isOpen chunk
  refine ⟨s', stepped, ?_⟩
  rw [← List.append_assoc] at part
  cases served with
  | waits _ isOpen' reads since journal =>
    refine ⟨isOpen', ⟨done, rest, rfl, by rw [journal, called], by rw [since, part]⟩, ?_⟩
    rintro h ⟨behind, whole⟩
    rw [since] at whole
    have complete := reads_bytes h behind
    rw [whole] at complete
    obtain ⟨verdict, -⟩ := reads_unique (c := {}) rfl reads complete
    cases verdict
  | refuses _ _ reads => exact absurd ⟨_, _, reads⟩ (stream_not_refused part)
  | @answers request response _ isOpen' reads journal =>
    obtain ⟨h, rest', rfl, same, cut, behind⟩ := first_of_stream part reads
    refine ⟨isOpen', ⟨done ++ [h], rest', by simp, ?_, behind⟩, ?_⟩
    · have same : request.setReceiveTime 0 = h.request := congrArg HttpContext.request_ same
      simp only [calls] at called
      simp [journal, calls, called, same]
    · rintro second ⟨last, whole⟩
      refine one h second ⟨last, ?_⟩
      rw [cut, ← whole, List.append_assoc]
  | trips stuck =>
    rcases isOpen.expects with ⟨ready, -⟩ | ⟨-, refused, -⟩
    · exact absurd stuck (free_of_ready ready)
    · rw [List.append_assoc] at part
      exact absurd refused (stream_not_refused part)

theorem answering_run {heads : List Head} (answering : Answering heads (arrived chunks) s)
    (within : server.machine.Within OneHead s chunks) :
    ∃ s', server.machine.run s chunks = some s' ∧ Answering heads [] s' := by
  induction chunks generalizing s with
  | nil => exact ⟨s, rfl, answering⟩
  | cons chunk chunks ih =>
    have next : arrived (chunk :: chunks) = chunk.1 ++ arrived chunks := rfl
    rw [next] at answering
    obtain ⟨t, stepped, answering'⟩ := answering_step answering within.1
    obtain ⟨s', ran, answering''⟩ := ih answering' (within.2 t stepped)
    exact ⟨s', (server.machine.run_cons_eq_some).mpr ⟨t, stepped, ran⟩, answering''⟩

theorem answers_all {heads : List Head} (valid : b.Valid) (empty : b.readable = []) (callback : σ)
    (whole : arrived chunks = stream heads)
    (within : server.machine.Within OneHead (onConnection callback b) chunks) :
    ∃ s, server.machine.run (onConnection callback b) chunks = some s ∧
      (calls s.journal).map (·.setReceiveTime 0) = heads.map Head.request := by
  have start : Answering heads (arrived chunks) (onConnection callback b) := by
    refine ⟨open_start callback valid empty, ⟨[], heads, rfl, rfl, whole⟩, ?_⟩
    rintro h ⟨behind, none_⟩
    have reads := reads_bytes h behind
    rw [none_] at reads
    exact absurd (not_reads_nil reads) (by decide)
  obtain ⟨s, ran, -, ⟨done, rest, rfl, called, left⟩, incomplete⟩ := answering_run start within
  refine ⟨s, ran, ?_⟩
  cases rest with
  | nil => rw [called, List.append_nil]
  | cons h rest =>
    rw [List.append_nil] at left
    exact absurd ⟨stream rest, left.symm⟩ (incomplete h)

/-- Two ways of cutting a stream of requests, in neither of which a chunk completes two of
    them, give the same calls of httpCallback_: all requests, in order. -/
theorem dispatch_ignores_chunks {heads : List Head} {b₁ b₂ : Buffer}
    {chunks₁ chunks₂ : List (List UInt8 × Int)} (valid₁ : b₁.Valid) (valid₂ : b₂.Valid)
    (empty₁ : b₁.readable = []) (empty₂ : b₂.readable = []) (callback : σ)
    (whole₁ : arrived chunks₁ = stream heads) (whole₂ : arrived chunks₂ = stream heads)
    (within₁ : server.machine.Within OneHead (onConnection callback b₁) chunks₁)
    (within₂ : server.machine.Within OneHead (onConnection callback b₂) chunks₂) :
    ∃ s₁ s₂, server.machine.run (onConnection callback b₁) chunks₁ = some s₁ ∧
      server.machine.run (onConnection callback b₂) chunks₂ = some s₂ ∧
      (calls s₁.journal).map (·.setReceiveTime 0) = heads.map Head.request ∧
      (calls s₂.journal).map (·.setReceiveTime 0) = heads.map Head.request := by
  obtain ⟨s₁, ran₁, all₁⟩ := answers_all valid₁ empty₁ callback whole₁ within₁
  obtain ⟨s₂, ran₂, all₂⟩ := answers_all valid₂ empty₂ callback whole₂ within₂
  exact ⟨s₁, s₂, ran₁, ran₂, all₁, all₂⟩

theorem oneHead_of_part {h : Head} (part : s.since ++ chunk.1 = h.bytes ++ left)
    (unended : 10 ∉ left) : OneHead s chunk := by
  rintro first second ⟨rest, both⟩
  have reads := reads_bytes first (second.bytes ++ rest)
  rw [← List.append_assoc, both, part] at reads
  obtain ⟨-, -, rfl⟩ := reads_unique (c := {}) rfl reads (reads_bytes h left)
  refine unended (List.mem_append_left rest ?_)
  exact (HttpContext.bytes_suffix second).subset (by decide)

theorem plainServer_since {t : Session Unit} {since : List UInt8}
    (taken : plainServer.machine.step plainStart chunk = some t)
    (computed : (plainServer.machine.step plainStart chunk).map (·.since) = some since) :
    t.since = since := by
  rw [taken] at computed
  exact Option.some.inj computed

theorem dispatch_ignores_chunks_of_get :
    ∃ s₁ s₂, plainServer.machine.run plainStart [(getHead.bytes, 1), (getHead.bytes, 2)] = some s₁ ∧
      plainServer.machine.run plainStart
        [(getHead.bytes ++ ascii "GET", 1), (getHead.bytes.drop 3, 2)] = some s₂ ∧
      (calls s₁.journal).map (·.setReceiveTime 0) = [getHead.request, getHead.request] ∧
      (calls s₂.journal).map (·.setReceiveTime 0) = [getHead.request, getHead.request] := by
  have valid : HttpContext.emptyBuffer.Valid := ⟨by decide, by decide, by decide⟩
  have within₁ : plainServer.machine.Within OneHead plainStart
      [(getHead.bytes, 1), (getHead.bytes, 2)] := by
    refine ⟨oneHead_of_part (h := getHead) (List.append_nil _).symm List.not_mem_nil, ?_⟩
    intro t taken
    have since : t.since = [] := plainServer_since taken (by decide +kernel)
    refine ⟨oneHead_of_part (h := getHead) ?_ List.not_mem_nil, fun _ _ => trivial⟩
    rw [since, List.append_nil, List.nil_append]
  have within₂ : plainServer.machine.Within OneHead plainStart
      [(getHead.bytes ++ ascii "GET", 1), (getHead.bytes.drop 3, 2)] := by
    have unended : 10 ∉ ascii "GET" := by decide
    refine ⟨oneHead_of_part (h := getHead) rfl unended, ?_⟩
    intro t taken
    have since : t.since = ascii "GET" := plainServer_since taken (by decide +kernel)
    refine ⟨oneHead_of_part (h := getHead) ?_ List.not_mem_nil, fun _ _ => trivial⟩
    rw [since, List.append_nil]
    decide
  have whole₁ : arrived [(getHead.bytes, 1), (getHead.bytes, 2)] = stream [getHead, getHead] := by
    decide
  have whole₂ : arrived [(getHead.bytes ++ ascii "GET", 1), (getHead.bytes.drop 3, 2)] =
      stream [getHead, getHead] := by
    decide
  exact dispatch_ignores_chunks valid valid (by decide) (by decide) () whole₁ whole₂ within₁
    within₂

/-- Two requests in one chunk: the second is left in the buffer. -/
theorem dispatch_leaves_second :
    ∃ s₁ s₂, arrived [(getHead.bytes ++ getHead.bytes, 1)] =
        arrived [(getHead.bytes, 1), (getHead.bytes, 2)] ∧
      close getHead.request = false ∧
      plainServer.machine.run plainStart [(getHead.bytes ++ getHead.bytes, 1)] = some s₁ ∧
      plainServer.machine.run plainStart [(getHead.bytes, 1), (getHead.bytes, 2)] = some s₂ ∧
      (calls s₁.journal).length = 1 ∧ (calls s₂.journal).length = 2 := by
  have count₁ : (plainServer.machine.run plainStart [(getHead.bytes ++ getHead.bytes, 1)]).map
      (fun s => (calls s.journal).length) = some 1 := by
    decide +kernel
  have count₂ : (plainServer.machine.run plainStart
      [(getHead.bytes, 1), (getHead.bytes, 2)]).map (fun s => (calls s.journal).length) =
      some 2 := by
    decide +kernel
  obtain ⟨s₁, ran₁, one⟩ := Option.map_eq_some_iff.mp count₁
  obtain ⟨s₂, ran₂, two⟩ := Option.map_eq_some_iff.mp count₂
  exact ⟨s₁, s₂, by decide, by decide +kernel, ran₁, ran₂, one, two⟩

/-! The announced close. -/

def Event.Announces : Event → Prop
  | .called _ => False
  | .answered response => response.closeConnection_ = true
  | .badRequest => True

def Event.IsCall : Event → Prop
  | .called _ => True
  | _ => False

/-- No call of httpCallback_ stands behind an announcement. -/
def Quiet (journal : List Event) : Prop :=
  journal.Pairwise fun e later => e.Announces → ¬later.IsCall

/-- Once a response has closed the connection, the bytes behind its request do not begin
    with a head. -/
def NoHeadAfterClose (s : Session σ) (chunk : List UInt8 × Int) : Prop :=
  (∃ response, .answered response ∈ s.journal ∧ response.closeConnection_ = true) →
    ∀ (h : Head) (last : List UInt8), OneLine last → 58 ∉ last →
      ¬h.endedBy last <+: s.since ++ chunk.1

structure Tracked (s : Session σ) : Prop where
  isOpen : s.fault = none → Open s
  refused : .badRequest ∈ s.journal → Refused s.since

theorem refused_append (refused : Refused bytes) (more : List UInt8) :
    Refused (bytes ++ more) := by
  obtain ⟨c, left, reads⟩ := refused
  exact ⟨c, left ++ more, reads_stopped reads (by decide) more⟩

theorem not_refused_of_head {c : HttpContext} (reads : Reads {} bytes .gotAll c left) :
    ¬Refused bytes := by
  rintro ⟨c', left', refuses⟩
  obtain ⟨verdict, -⟩ := reads_unique (c := {}) rfl reads refuses
  cases verdict

theorem quiet_append_other {journal : List Event} {e : Event} (quiet : Quiet journal)
    (other : ¬e.IsCall) : Quiet (journal ++ [e]) := by
  refine List.pairwise_append.mpr ⟨quiet, List.pairwise_singleton _ _, ?_⟩
  intro before _ later member _
  rwa [List.mem_singleton.mp member]

theorem quiet_append_call {journal : List Event} {request : HttpRequest} :
    Quiet (journal ++ [.called request]) ↔ Quiet journal ∧ ∀ e ∈ journal, ¬e.Announces := by
  unfold Quiet
  rw [List.pairwise_append]
  constructor
  · rintro ⟨quiet, -, across⟩
    refine ⟨quiet, ?_⟩
    intro e member announces
    exact across e member (.called request) (List.mem_singleton_self _) announces trivial
  · rintro ⟨quiet, silent⟩
    refine ⟨quiet, List.pairwise_singleton _ _, ?_⟩
    intro e member later _ announces
    exact absurd announces (silent e member)

theorem noHead_of_unread
    (unread : ∀ c left, ¬Reads {} (s.since ++ chunk.1) .gotAll c left) :
    NoHeadAfterClose s chunk := by
  rintro - h last oneLine colon ⟨behind, whole⟩
  have reads := reads_head h oneLine colon behind
  rw [whole] at reads
  exact unread _ _ reads

theorem close_step (tracked : Tracked s) (quiet : Quiet s.journal)
    (stepped : server.machine.step s chunk = some s') :
    Tracked s' ∧ (Quiet s'.journal ↔ NoHeadAfterClose s chunk) := by
  have running : s.fault = none := by
    by_contra failed
    rw [machine, faults.step_of_fault failed] at stepped
    cases stepped
  have isOpen := tracked.isOpen running
  obtain ⟨t, stepped', served⟩ : ∃ t, server.machine.step s chunk = some t ∧ Served s chunk.1 t :=
    step_spec isOpen chunk
  obtain rfl : t = s' := Option.some.inj (stepped'.symm.trans stepped)
  cases served with
  | waits _ isOpen' reads since journal =>
    refine ⟨⟨fun _ => isOpen', ?_⟩, ?_⟩
    · rw [journal, since]
      exact fun bad => refused_append (tracked.refused bad) chunk.1
    · rw [journal, iff_true_intro quiet, true_iff]
      refine noHead_of_unread fun c left complete => ?_
      obtain ⟨verdict, -⟩ := reads_unique (c := {}) rfl reads complete
      cases verdict
  | refuses _ isOpen' reads since journal =>
    have refused : Refused (s.since ++ chunk.1) := ⟨_, _, reads⟩
    refine ⟨⟨fun _ => isOpen', ?_⟩, ?_⟩
    · rw [since]
      exact fun _ => refused
    · have quiet' : Quiet (s.journal ++ [.badRequest]) := quiet_append_other quiet not_false
      rw [journal, iff_true_intro quiet', true_iff]
      exact noHead_of_unread fun c left complete => not_refused_of_head complete refused
  | @answers request response _ isOpen' reads journal =>
    have accepted : .badRequest ∉ s.journal := fun bad =>
      not_refused_of_head reads (refused_append (tracked.refused bad) chunk.1)
    have two : s.journal ++ [.called request, .answered response] =
        s.journal ++ [.called request] ++ [.answered response] := by
      rw [List.append_assoc]
      rfl
    refine ⟨⟨fun _ => isOpen', ?_⟩, ?_⟩
    · rw [journal]
      intro bad
      simp [accepted] at bad
    · rw [journal, two]
      constructor
      · rintro loud ⟨closing, listed, closes⟩
        have called : Quiet (s.journal ++ [.called request]) :=
          (List.pairwise_append.mp loud).1
        exact absurd closes ((quiet_append_call.mp called).2 _ listed)
      · intro noHead
        refine quiet_append_other (quiet_append_call.mpr ⟨quiet, ?_⟩) not_false
        intro e listed announces
        obtain ⟨h, last, oneLine, colon, whole, -⟩ := head_of_reads reads
        cases e with
        | called => exact announces
        | badRequest => exact accepted listed
        | answered closing =>
          exact noHead ⟨closing, listed, announces⟩ h last oneLine colon ⟨_, whole.symm⟩
  | trips stuck failed since journal =>
    refine ⟨⟨?_, ?_⟩, ?_⟩
    · intro unfailed
      simp [unfailed] at failed
    · rw [journal, since]
      exact tracked.refused
    · rw [journal, iff_true_intro quiet, true_iff]
      refine noHead_of_unread fun c left complete => ?_
      rcases isOpen.expects with ⟨ready, -⟩ | ⟨-, refused, -⟩
      · exact free_of_ready ready stuck
      · exact not_refused_of_head complete (refused_append refused chunk.1)

/-- httpCallback_ is never called after an announced close exactly when the bytes that
    follow a request answered with a close never come to begin with a head. After a 400
    nothing needs to be assumed. -/
theorem no_call_after_close_iff (valid : b.Valid) (empty : b.readable = [])
    (ran : server.machine.run (onConnection callback b) chunks = some s) :
    server.machine.Always (fun s => Quiet s.journal) (onConnection callback b) chunks ↔
      server.machine.Within NoHeadAfterClose (onConnection callback b) chunks := by
  refine server.machine.always_iff_within NoHeadAfterClose Tracked _ ?_ ?_ ?_ List.Pairwise.nil ran
  · intro s chunk t tracked quiet allowed stepped
    obtain ⟨tracked', exact_⟩ := close_step tracked quiet stepped
    exact ⟨tracked', exact_.mpr allowed⟩
  · intro s chunk t tracked quiet refused stepped
    exact fun loud => refused ((close_step tracked quiet stepped).2.mp loud)
  · refine ⟨fun _ => open_start callback valid empty, ?_⟩
    intro bad
    cases bad

def closingHead : Head :=
  { getHead with headers := [ascii "Connection: close"], headerLines := by decide }

theorem no_call_after_close_of_part :
    ∃ s, plainServer.machine.run plainStart [(closingHead.bytes, 1), (ascii "GET", 2)] = some s ∧
      (calls s.journal).length = 1 ∧
      plainServer.machine.Always (fun s => Quiet s.journal) plainStart
        [(closingHead.bytes, 1), (ascii "GET", 2)] := by
  have valid : HttpContext.emptyBuffer.Valid := ⟨by decide, by decide, by decide⟩
  have count : (plainServer.machine.run plainStart [(closingHead.bytes, 1), (ascii "GET", 2)]).map
      (fun s => (calls s.journal).length) = some 1 := by
    decide +kernel
  obtain ⟨s, ran, one⟩ := Option.map_eq_some_iff.mp count
  refine ⟨s, ran, one, (no_call_after_close_iff valid (by decide) ran).mpr ⟨?_, ?_⟩⟩
  · rintro ⟨response, listed, -⟩
    cases listed
  · intro t taken
    have since : t.since = [] := plainServer_since taken (by decide +kernel)
    refine ⟨?_, fun _ _ => trivial⟩
    intro _ h last _ _ begins
    rw [since] at begins
    have ends : 10 ∈ h.endedBy last := by
      simp [Head.endedBy, Buffer.kCRLF]
    exact absurd (begins.subset ends) (by decide)

def Event.closing : Event → Option (Option Bool)
  | .called _ => none
  | .answered response => some (some response.closeConnection_)
  | .badRequest => some none

theorem called_of_closing {e : Event} (none_ : e.closing = none) :
    ∃ request, e = .called request := by
  cases e with
  | called request => exact ⟨request, rfl⟩
  | answered response => cases none_
  | badRequest => cases none_

theorem answered_of_closing {e : Event} {closes : Bool} (some_ : e.closing = some (some closes)) :
    ∃ response, e = .answered response ∧ response.closeConnection_ = closes := by
  cases e with
  | called request => cases some_
  | answered response => exact ⟨response, rfl, Option.some.inj (Option.some.inj some_)⟩
  | badRequest => cases some_

/-- A request that comes after the response with the close is answered. -/
theorem call_after_close :
    ∃ (s : Session Unit) (first second : HttpRequest) (response last : HttpResponse),
      plainServer.machine.run plainStart [(closingHead.bytes, 1), (getHead.bytes, 2)] = some s ∧
      s.journal = [.called first, .answered response, .called second, .answered last] ∧
      response.closeConnection_ = true := by
  have shape : (plainServer.machine.run plainStart
      [(closingHead.bytes, 1), (getHead.bytes, 2)]).map (fun s =>
        s.journal.map Event.closing) =
      some [none, some (some true), none, some (some false)] := by
    decide +kernel
  obtain ⟨s, ran, events⟩ := Option.map_eq_some_iff.mp shape
  obtain ⟨e₁, _, journal, called₁, events⟩ := List.map_eq_cons_iff.mp events
  obtain ⟨e₂, _, rfl, answered₂, events⟩ := List.map_eq_cons_iff.mp events
  obtain ⟨e₃, _, rfl, called₃, events⟩ := List.map_eq_cons_iff.mp events
  obtain ⟨e₄, _, rfl, answered₄, events⟩ := List.map_eq_cons_iff.mp events
  obtain rfl := List.map_eq_nil_iff.mp events
  obtain ⟨first, rfl⟩ := called_of_closing called₁
  obtain ⟨response, rfl, closes⟩ := answered_of_closing answered₂
  obtain ⟨second, rfl⟩ := called_of_closing called₃
  obtain ⟨last, rfl, -⟩ := answered_of_closing answered₄
  exact ⟨s, first, second, response, last, ran, journal, closes⟩

end HttpServer
end Muduo
