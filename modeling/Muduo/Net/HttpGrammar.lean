import Muduo.Net.HttpContextStream

/-!
The grammar of a request head, apart from the parser: a request line, header lines with
a colon, and the line that ends the head. The parser takes every line without a colon
for the end of the head, and so it accepts the heads that end in such a line; they are
the heads of the grammar when that line is empty.
-/
namespace Muduo
open Lib
namespace HttpRequest
variable {m : Method} {text : List UInt8}

def methodString : Method → List UInt8
  | .kGet => ascii "GET"
  | .kPost => ascii "POST"
  | .kHead => ascii "HEAD"
  | .kPut => ascii "PUT"
  | .kDelete => ascii "DELETE"
  | .kInvalid => ascii "UNKNOWN"

theorem methodOf_methodString (known : m ≠ .kInvalid) : methodOf (methodString m) = m := by
  cases m with
  | kInvalid => exact absurd rfl known
  | kGet => decide
  | kPost => decide
  | kHead => decide
  | kPut => decide
  | kDelete => decide

theorem methodString_methodOf (known : methodOf text ≠ .kInvalid) :
    methodString (methodOf text) = text := by
  unfold methodOf at known ⊢
  split_ifs at known ⊢ <;> first | exact absurd rfl known | (symm; assumption)

theorem methodString_spaceless (m : Method) : 32 ∉ methodString m := by
  cases m <;> decide

end HttpRequest

namespace HttpContext
open Buffer (kCRLF OneLine lineEnd lineEnd_split lineEnd_line)
open HttpRequest (methodString)

def versionString : HttpRequest.Version → List UInt8
  | .kHttp10 => ascii "HTTP/1.0"
  | .kHttp11 => ascii "HTTP/1.1"
  | .kUnknown => []

def requestLine (method : HttpRequest.Method) (target : List UInt8)
    (version : HttpRequest.Version) : List UInt8 :=
  methodString method ++ 32 :: (target ++ 32 :: versionString version)

structure Head where
  method : HttpRequest.Method
  target : List UInt8
  version : HttpRequest.Version
  headers : List (List UInt8)
  known : method ≠ .kInvalid
  spaceless : 32 ∉ target
  stated : version ≠ .kUnknown
  oneLine : OneLine (requestLine method target version)
  headerLines : ∀ line ∈ headers, OneLine line ∧ 58 ∈ line

def headerText (lines : List (List UInt8)) : List UInt8 := lines.flatMap (· ++ kCRLF)

def Head.endedBy (h : Head) (last : List UInt8) : List UInt8 :=
  requestLine h.method h.target h.version ++ kCRLF ++ (headerText h.headers ++ (last ++ kCRLF))

def Head.bytes (h : Head) : List UInt8 := h.endedBy []

def addHeaders (r : HttpRequest) (lines : List (List UInt8)) : HttpRequest :=
  lines.foldl (fun r line => r.addHeader line (line.idxOf 58)) r

def Head.request (h : Head) : HttpRequest :=
  addHeaders ((processUrl { method_ := h.method } h.target).setVersion h.version) h.headers

/-! The request line. -/

section
variable {r request : HttpRequest} {text line target : List UInt8} {a : UInt8}
variable {method : HttpRequest.Method} {version : HttpRequest.Version}

theorem idxOf_cut {xs : List UInt8} (absent : a ∉ xs) (ys : List UInt8) :
    (xs ++ a :: ys).idxOf a = xs.length := by
  rw [List.idxOf_append_of_notMem absent, List.idxOf_cons_self, Nat.add_zero]

theorem drop_cut (xs ys : List UInt8) : (xs ++ a :: ys).drop (xs.length + 1) = ys := by
  rw [← List.drop_drop, List.drop_left, List.drop_succ_cons, List.drop_zero]

theorem length_ne_cut (xs ys : List UInt8) : xs.length ≠ (xs ++ a :: ys).length := by
  rw [List.length_append, List.length_cons]
  omega

theorem processVersion_versionString (stated : version ≠ .kUnknown) :
    processVersion r (versionString version) = (r.setVersion version, true) := by
  cases version with
  | kUnknown => exact absurd rfl stated
  | kHttp10 => rfl
  | kHttp11 => rfl

theorem versionString_of_processVersion (accepted : processVersion r text = (request, true)) :
    ∃ version, version ≠ .kUnknown ∧ text = versionString version ∧
      request = r.setVersion version := by
  have shape : ∀ d, text.length = 8 ∧ text.take 7 = ascii "HTTP/1." → text.getLast? = some d →
      text = ascii "HTTP/1." ++ [d] := by
    rintro d ⟨eight, start⟩ last
    obtain ⟨before, rfl⟩ := List.getLast?_eq_some_iff.mp last
    have seven : before.length = 7 := by simpa using eight
    rw [← start, List.take_left' seven]
  unfold processVersion at accepted
  split at accepted
  · rename_i form
    split at accepted
    · rename_i last
      cases accepted
      exact ⟨.kHttp11, by decide, shape 49 form last, rfl⟩
    · split at accepted
      · rename_i last
        cases accepted
        exact ⟨.kHttp10, by decide, shape 48 form last, rfl⟩
      · cases accepted
  · cases accepted

theorem processRequestLine_requestLine (fresh : r.method_ = .kInvalid)
    (known : method ≠ .kInvalid) (spaceless : 32 ∉ target) (stated : version ≠ .kUnknown) :
    processRequestLine r (requestLine method target version) =
      .ok ((processUrl { r with method_ := method } target).setVersion version, true) := by
  have first := idxOf_cut (HttpRequest.methodString_spaceless method)
    (target ++ 32 :: versionString version)
  have second := idxOf_cut spaceless (versionString version)
  have same := HttpRequest.methodOf_methodString known
  simp only [processRequestLine, requestLine, first, ne_eq, length_ne_cut, not_false_eq_true,
    if_true, List.take_left, drop_cut, setMethod_invalid fresh, same, known, decide_true, ok_bind,
    second, processVersion_versionString stated, pure_eq_ok]

theorem requestLine_of_processRequestLine (fresh : r.method_ = .kInvalid)
    (accepted : processRequestLine r line = .ok (request, true)) :
    ∃ method target version, method ≠ .kInvalid ∧ 32 ∉ target ∧ version ≠ .kUnknown ∧
      line = requestLine method target version ∧
      request = (processUrl { r with method_ := method } target).setVersion version := by
  have refused : ∀ {r' : HttpRequest},
      (.ok (r', false) : Checked (HttpRequest × Bool)) ≠ .ok (request, true) := by
    intro r' same
    cases same
  simp only [processRequestLine, setMethod_invalid fresh, ok_bind, pure_eq_ok] at accepted
  split at accepted
  · rename_i first
    obtain ⟨m, rest, rfl, spaceless₁⟩ :=
      List.eq_append_cons_of_mem (not_not.mp (mt List.idxOf_eq_length_iff.mpr first))
    simp only [idxOf_cut spaceless₁, List.take_left, drop_cut] at accepted
    split at accepted
    · rename_i known
      have known : HttpRequest.methodOf m ≠ .kInvalid := of_decide_eq_true known
      split at accepted
      · rename_i second
        obtain ⟨target, text, rfl, spaceless₂⟩ :=
          List.eq_append_cons_of_mem (not_not.mp (mt List.idxOf_eq_length_iff.mpr second))
        simp only [idxOf_cut spaceless₂, List.take_left, drop_cut] at accepted
        obtain ⟨version, stated, rfl, rfl⟩ :=
          versionString_of_processVersion (Except.ok.inj accepted)
        refine ⟨_, target, version, known, spaceless₂, stated, ?_, rfl⟩
        rw [requestLine, HttpRequest.methodString_methodOf known]
      · exact absurd accepted refused
    · exact absurd accepted refused
  · exact absurd accepted refused

end

/-! The head. -/

section
variable {c c' : HttpContext} {bytes left last line : List UInt8} {v : Verdict}
variable {lines : List (List UInt8)}

theorem ends_line (oneLine : OneLine line) (rest : List UInt8) :
    lineEnd (line ++ kCRLF ++ rest) = some line.length ∧
      (line ++ kCRLF ++ rest).take line.length = line ∧
      (line ++ kCRLF ++ rest).drop (line.length + 2) = rest := by
  refine ⟨lineEnd_line oneLine rest, ?_, ?_⟩
  · rw [List.append_assoc, List.take_left]
  · exact List.drop_left' (by simp [kCRLF])

theorem reads_headers (r : HttpRequest) (headerLines : ∀ line ∈ lines, OneLine line ∧ 58 ∈ line)
    (oneLine : OneLine last) (colon : 58 ∉ last) (rest : List UInt8) :
    Reads ⟨.kExpectHeaders, r⟩ (headerText lines ++ (last ++ kCRLF) ++ rest) .gotAll
      ⟨.kGotAll, addHeaders r lines⟩ rest := by
  induction lines generalizing r with
  | nil =>
    obtain ⟨ends, first, behind⟩ := ends_line oneLine rest
    have reads : Reads ⟨.kExpectHeaders, r⟩ (last ++ kCRLF ++ rest) .gotAll _ _ :=
      .lastLine rfl ends (first.symm ▸ colon)
    rw [behind] at reads
    exact reads
  | cons line lines ih =>
    obtain ⟨⟨oneLine', colon'⟩, others⟩ := List.forall_mem_cons.mp headerLines
    obtain ⟨ends, first, behind⟩ :=
      ends_line oneLine' (headerText lines ++ (last ++ kCRLF) ++ rest)
    have text : headerText (line :: lines) ++ (last ++ kCRLF) ++ rest =
        line ++ kCRLF ++ (headerText lines ++ (last ++ kCRLF) ++ rest) := by
      simp only [headerText, List.flatMap_cons, List.append_assoc]
    rw [text]
    refine .header rfl ends (first.symm ▸ colon') ?_
    rw [first, behind]
    exact ih _ others

theorem reads_head (h : Head) (oneLine : OneLine last) (colon : 58 ∉ last) (rest : List UInt8) :
    Reads {} (h.endedBy last ++ rest) .gotAll ⟨.kGotAll, h.request⟩ rest := by
  obtain ⟨ends, first, behind⟩ :=
    ends_line h.oneLine (headerText h.headers ++ (last ++ kCRLF) ++ rest)
  have text : h.endedBy last ++ rest = requestLine h.method h.target h.version ++ kCRLF ++
      (headerText h.headers ++ (last ++ kCRLF) ++ rest) := by
    simp only [Head.endedBy, List.append_assoc]
  have processed := processRequestLine_requestLine (r := {}) rfl h.known h.spaceless h.stated
  rw [text]
  refine .requestLine rfl ends (first.symm ▸ processed) ?_
  rw [behind]
  exact reads_headers _ h.headerLines oneLine colon rest

theorem headers_of_reads (reads : Reads c bytes v c' left) (complete : v = .gotAll)
    (state : c.state_ = .kExpectHeaders) :
    ∃ lines last, (∀ line ∈ lines, OneLine line ∧ 58 ∈ line) ∧ OneLine last ∧ 58 ∉ last ∧
      bytes = headerText lines ++ (last ++ kCRLF) ++ left ∧
      c' = ⟨.kGotAll, addHeaders c.request_ lines⟩ := by
  induction reads with
  | waits => cases complete
  | refused state' => simp [state] at state'
  | requestLine state' => simp [state] at state'
  | @header c c' bytes left v i _ ends colon further ih =>
    obtain ⟨lines, last, headerLines, oneLine, colon', rest, rfl⟩ := ih complete state
    obtain ⟨oneLine', split⟩ := lineEnd_split ends
    refine ⟨bytes.take i :: lines, last, ?_, oneLine, colon', ?_, rfl⟩
    · exact List.forall_mem_cons.mpr ⟨⟨oneLine', colon⟩, headerLines⟩
    · rw [rest] at split
      simpa only [headerText, List.flatMap_cons, List.append_assoc] using split
  | @lastLine c bytes i _ ends colon =>
    obtain ⟨oneLine, split⟩ := lineEnd_split ends
    refine ⟨[], bytes.take i, ?_, oneLine, colon, split, rfl⟩
    intro line absent
    cases absent

theorem head_of_reads (reads : Reads {} bytes .gotAll c' left) :
    ∃ (h : Head) (last : List UInt8), OneLine last ∧ 58 ∉ last ∧
      bytes = h.endedBy last ++ left ∧ c' = ⟨.kGotAll, h.request⟩ := by
  cases reads with
  | header state => cases state
  | lastLine state => cases state
  | requestLine _ ends processed further =>
    obtain ⟨method, target, version, known, spaceless, stated, line, rfl⟩ :=
      requestLine_of_processRequestLine rfl processed
    obtain ⟨oneLine, split⟩ := lineEnd_split ends
    obtain ⟨lines, last, headerLines, oneLine', colon, rest, rfl⟩ :=
      headers_of_reads further rfl rfl
    rw [line] at oneLine
    refine ⟨⟨method, target, version, lines, known, spaceless, stated, oneLine, headerLines⟩, last,
      oneLine', colon, ?_, rfl⟩
    rw [line, rest] at split
    simpa only [Head.endedBy, List.append_assoc] using split

theorem oneLine_nil : OneLine [] := by
  simp [OneLine, kCRLF]

theorem headerText_suffix (lines : List (List UInt8)) : kCRLF <:+ kCRLF ++ headerText lines := by
  rcases List.eq_nil_or_concat lines with rfl | ⟨others, line, rfl⟩
  · exact ⟨[], rfl⟩
  · refine ⟨kCRLF ++ headerText others ++ line, ?_⟩
    simp [headerText]

theorem bytes_suffix (h : Head) : kCRLF ++ kCRLF <:+ h.bytes := by
  obtain ⟨before, lines⟩ := headerText_suffix h.headers
  refine ⟨requestLine h.method h.target h.version ++ before, ?_⟩
  rw [List.append_assoc, ← List.append_assoc before, lines]
  simp only [Head.bytes, Head.endedBy, List.nil_append, List.append_assoc]

theorem last_eq_nil {h h₀ : Head} (oneLine : OneLine last) (same : h.endedBy last = h₀.bytes) :
    last = [] := by
  have ends : kCRLF <:+ requestLine h.method h.target h.version ++
      (kCRLF ++ headerText h.headers) ++ last := by
    obtain ⟨before, twice⟩ := bytes_suffix h₀
    refine ⟨before, ?_⟩
    rw [← same] at twice
    simp only [Head.endedBy, ← List.append_assoc] at twice ⊢
    exact List.append_cancel_right twice
  obtain ⟨before, lines⟩ := headerText_suffix h.headers
  rw [← lines] at ends
  match last with
  | [] => rfl
  | [x] =>
    obtain ⟨start, again⟩ := ends
    have reversed := congrArg List.reverse again
    simp [kCRLF] at reversed
  | x :: y :: rest =>
    refine absurd ?_ oneLine
    have within := List.suffix_of_suffix_length_le ends (List.suffix_append _ (x :: y :: rest))
      (by simp [kCRLF])
    exact within.isInfix

end

section
variable {b : Buffer} {consumed : List UInt8}

theorem parseRequest_accepts (valid : b.Valid) (t : Int) (consumed : List UInt8) :
    (∃ q, parseRequest {} b t = .ok (some q) ∧ q.context.gotAll = true ∧
        b.readable = consumed ++ q.buf.readable) ↔
      consumed <+: b.readable ∧ ∃ (h : Head) (last : List UInt8), OneLine last ∧ 58 ∉ last ∧
        consumed = h.endedBy last := by
  constructor
  · rintro ⟨q, ran, complete, split⟩
    obtain ⟨v, c', left, reads⟩ := reads_total (c := {}) (Or.inl ⟨rfl, rfl⟩) b.readable
    obtain ⟨q', ran', shows_⟩ := parseRequest_reads (c := {}) (t := t) valid rfl reads
    rw [ran] at ran'
    cases ran'
    have state : c'.gotAll = true := by
      rw [← shows_.context]
      exact complete
    obtain rfl := (gotAll_of_reads reads).mp state
    obtain ⟨h, last, oneLine, colon, head, -⟩ := head_of_reads reads
    refine ⟨⟨_, split.symm⟩, h, last, oneLine, colon, ?_⟩
    rw [shows_.readable, head] at split
    exact (List.append_cancel_right split).symm
  · rintro ⟨⟨rest, split⟩, h, last, oneLine, colon, rfl⟩
    have reads := reads_head h oneLine colon rest
    rw [split] at reads
    obtain ⟨q, ran, shows_⟩ := parseRequest_reads (c := {}) (t := t) valid rfl reads
    refine ⟨q, ran, ?_, ?_⟩
    · simp [gotAll, shows_state shows_]
    · rw [shows_.readable, split]

/-- Behind a request line of the grammar and lines with a colon, a line without one is empty. -/
def EndsEmpty (bytes : List UInt8) : Prop :=
  ∀ (h : Head) (last : List UInt8), OneLine last → 58 ∉ last → h.endedBy last <+: bytes → last = []

theorem endsEmpty_bytes (h : Head) (rest : List UInt8) : EndsEmpty (h.bytes ++ rest) := by
  intro h' last oneLine colon begins
  obtain ⟨rest', split⟩ := begins
  have reads := reads_head h oneLine_nil List.not_mem_nil rest
  have reads' := reads_head h' oneLine colon rest'
  rw [split] at reads'
  obtain ⟨-, -, rfl⟩ := reads_unique (c := {}) rfl reads reads'
  exact last_eq_nil oneLine (List.append_cancel_right split)

/-- What a fresh context takes from a buffer is a head of the grammar, and every such head at the
    front is taken, exactly when no line but an empty one ends a head there. -/
theorem parseRequest_accepts_grammar (valid : b.Valid) (t : Int) :
    (∀ consumed, (∃ q, parseRequest {} b t = .ok (some q) ∧ q.context.gotAll = true ∧
        b.readable = consumed ++ q.buf.readable) ↔
      consumed <+: b.readable ∧ ∃ h : Head, consumed = h.bytes) ↔ EndsEmpty b.readable := by
  simp only [parseRequest_accepts valid]
  constructor
  · intro takes h last oneLine colon begins
    obtain ⟨-, h₀, same⟩ := (takes (h.endedBy last)).mp ⟨begins, h, last, oneLine, colon, rfl⟩
    exact last_eq_nil oneLine same
  · intro ended consumed
    constructor
    · rintro ⟨begins, h, last, oneLine, colon, rfl⟩
      obtain rfl := ended h last oneLine colon begins
      exact ⟨begins, h, rfl⟩
    · rintro ⟨begins, h, rfl⟩
      exact ⟨begins, h, [], oneLine_nil, List.not_mem_nil, rfl⟩

def getHead : Head where
  method := .kGet
  target := ascii "/"
  version := .kHttp11
  headers := [ascii "Host: muduo"]
  known := by decide
  spaceless := by decide
  stated := by decide
  oneLine := by decide
  headerLines := by decide

theorem parseRequest_accepts_grammar_of_get :
    ∃ b : Buffer, b.Valid ∧ b.readable = getHead.bytes ++ ascii "POST" ∧ EndsEmpty b.readable ∧
      ∀ consumed, (∃ q, parseRequest {} b 0 = .ok (some q) ∧ q.context.gotAll = true ∧
          b.readable = consumed ++ q.buf.readable) ↔
        consumed <+: b.readable ∧ ∃ h : Head, consumed = h.bytes := by
  obtain ⟨b, valid, content⟩ := Buffer.exists_readable (getHead.bytes ++ ascii "POST")
  have ended : EndsEmpty b.readable := content ▸ endsEmpty_bytes getHead (ascii "POST")
  exact ⟨b, valid, content, ended, (parseRequest_accepts_grammar valid 0).mpr ended⟩

/-- The line "abc" ends a head that has no empty line. -/
theorem parseRequest_ends_without_empty_line :
    ∃ b : Buffer, b.Valid ∧
      b.readable = ascii "GET / HTTP/1.1" ++ kCRLF ++ ascii "abc" ++ kCRLF ∧
      (∃ q, parseRequest {} b 0 = .ok (some q) ∧ q.context.gotAll = true ∧
        b.readable = b.readable ++ q.buf.readable) ∧
      ¬∃ h : Head, b.readable = h.bytes := by
  obtain ⟨b, valid, content⟩ := Buffer.exists_readable
    (ascii "GET / HTTP/1.1" ++ kCRLF ++ ascii "abc" ++ kCRLF)
  refine ⟨b, valid, content, ?_, ?_⟩
  · refine (parseRequest_accepts valid 0 b.readable).mpr ⟨List.prefix_refl _, ?_⟩
    refine ⟨{ getHead with headers := [], headerLines := by decide }, ascii "abc", by decide,
      by decide, ?_⟩
    rw [content]
    decide
  · rintro ⟨h, same⟩
    have ends := bytes_suffix h
    rw [← same, content] at ends
    revert ends
    decide

end
end HttpContext
end Muduo
