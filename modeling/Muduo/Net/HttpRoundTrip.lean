import Mathlib.Data.List.Nodup
import Muduo.Net.HttpGrammar

/-!
A request written as text and read by parseRequest. The names and values of the headers
are not those of the parser but what the writer started from: the first colon of a line
is the one behind the name, and trimming a value takes only the blank before it.
-/
namespace Muduo
open Lib
namespace HttpContext
open Buffer (kCRLF OneLine)
open HttpRequest (methodString)

/-- A request as a client writes it, with its headers in the order of writing. -/
structure RequestText where
  method : HttpRequest.Method
  path : List UInt8
  query : List UInt8
  version : HttpRequest.Version
  headers : List (List UInt8 × List UInt8)
  known : method ≠ .kInvalid
  pathPlain : 32 ∉ path ∧ 63 ∉ path ∧ OneLine path
  queryPlain : (query = [] ∨ query.head? = some 63) ∧ 32 ∉ query ∧ OneLine query
  stated : version ≠ .kUnknown
  distinct : (headers.map Prod.fst).Nodup
  namesPlain : ∀ header ∈ headers, 58 ∉ header.1 ∧ OneLine header.1
  valuesPlain : ∀ header ∈ headers, OneLine header.2 ∧
    (∀ c ∈ header.2.head?, isspace c = false) ∧ ∀ c ∈ header.2.getLast?, isspace c = false

def headerLine (header : List UInt8 × List UInt8) : List UInt8 :=
  header.1 ++ ascii ": " ++ header.2

def RequestText.render (text : RequestText) : List UInt8 :=
  requestLine text.method (text.path ++ text.query) text.version ++ kCRLF ++
    (headerText (text.headers.map headerLine) ++ kCRLF)

section
variable {xs ys name value path query : List UInt8} {r : HttpRequest}
variable {headers : List (List UInt8 × List UInt8)}

theorem oneLine_append (first : OneLine xs) (second : OneLine ys)
    (border : xs.getLast? = some 13 → ys.head? ≠ some 10) : OneLine (xs ++ ys) := by
  unfold OneLine
  rw [List.infix_append_iff]
  rintro (inFirst | inSecond | ⟨before, behind, parts, ends, begins⟩)
  · exact first inFirst
  · exact second inSecond
  · match before, behind with
    | [], behind => exact second (parts ▸ begins.isInfix)
    | [a], [b] =>
      obtain ⟨start, rfl⟩ := ends
      obtain ⟨rest, rfl⟩ := begins
      cases parts
      exact border (by simp) rfl
    | a :: b :: rest, behind =>
      have all : kCRLF = a :: b :: rest := by
        simp only [kCRLF, List.cons_append, List.cons.injEq, List.nil_eq, List.append_eq_nil_iff]
          at parts ⊢
        exact ⟨parts.1, parts.2.1, parts.2.2.1⟩
      exact first (all ▸ ends.isInfix)
    | [a], [] => cases parts
    | [a], b :: c :: rest => cases parts

theorem oneLine_requestLine {method : HttpRequest.Method} {version : HttpRequest.Version}
    (target : OneLine xs) : OneLine (requestLine method xs version) := by
  have line : requestLine method xs version =
      methodString method ++ [32] ++ (xs ++ 32 :: versionString version) := by
    simp [requestLine]
  have start : OneLine (methodString method ++ [32]) := by
    cases method <;> decide
  have end_ : OneLine (32 :: versionString version) := by
    cases version <;> decide
  rw [line]
  refine oneLine_append start (oneLine_append target end_ ?_) ?_
  · intro _
    rw [List.head?_cons]
    decide
  · rw [List.getLast?_concat]
    intro blank
    cases blank

theorem oneLine_headerLine (name_ : OneLine name) (value_ : OneLine value) :
    OneLine (headerLine (name, value)) := by
  refine oneLine_append (oneLine_append name_ ?_ ?_) value_ ?_
  · decide
  · intro _
    decide
  · have blank : ascii ": " = [58] ++ [32] := by decide
    rw [blank, ← List.append_assoc, List.getLast?_concat]
    intro last
    cases last

theorem processUrl_append (plain : 63 ∉ path) (none_ : r.query_ = [])
    (start : query = [] ∨ query.head? = some 63) :
    processUrl r (path ++ query) = { r with path_ := path, query_ := query } := by
  rcases start with rfl | start
  · have absent := List.idxOf_eq_length_iff.mpr plain
    simp only [processUrl, List.append_nil, absent, ne_eq, not_true_eq_false, if_false,
      HttpRequest.setPath, none_]
  · obtain ⟨rest, rfl⟩ := List.head?_eq_some_iff.mp start
    simp only [processUrl, idxOf_cut plain, ne_eq, length_ne_cut, not_false_eq_true, if_true,
      List.take_left, List.drop_left, HttpRequest.setPath, HttpRequest.setQuery]

theorem addHeader_headerLine (plain : 58 ∉ name) (start : ∀ c ∈ value.head?, isspace c = false)
    (end_ : ∀ c ∈ value.getLast?, isspace c = false) :
    r.addHeader (headerLine (name, value)) ((headerLine (name, value)).idxOf 58) =
      { r with headers_ := Function.update r.headers_ name (some value) } := by
  have line : headerLine (name, value) = name ++ 58 :: (32 :: value) := by
    have colon : ascii ": " = [58, 32] := by decide
    simp [headerLine, colon]
  have trimmed : ((32 :: value).dropWhile isspace).rdropWhile isspace = value := by
    have blank : isspace 32 = true := by decide
    rw [List.dropWhile_cons_of_pos blank]
    have first : value.dropWhile isspace = value := by
      cases value with
      | nil => rfl
      | cons c rest =>
        have visible := start c rfl
        exact List.dropWhile_cons_of_neg (by simp [visible])
    rw [first, List.rdropWhile_eq_self_iff]
    intro nonempty
    have visible := end_ _ (List.getLast?_eq_getLast_of_ne_nil nonempty)
    simp [visible]
  rw [line, idxOf_cut plain]
  simp only [HttpRequest.addHeader, List.take_left, drop_cut, trimmed]

theorem addHeaders_fields (r : HttpRequest) (lines : List (List UInt8)) :
    addHeaders r lines = { r with headers_ := (addHeaders r lines).headers_ } := by
  induction lines generalizing r with
  | nil => rfl
  | cons line lines ih => exact ih (r.addHeader line (line.idxOf 58))

theorem headers_addHeaders (distinct : (headers.map Prod.fst).Nodup)
    (namesPlain : ∀ header ∈ headers, 58 ∉ header.1 ∧ OneLine header.1)
    (valuesPlain : ∀ header ∈ headers, OneLine header.2 ∧
      (∀ c ∈ header.2.head?, isspace c = false) ∧ ∀ c ∈ header.2.getLast?, isspace c = false)
    (name value : List UInt8) :
    (addHeaders r (headers.map headerLine)).headers_ name = some value ↔
      (name, value) ∈ headers ∨ (name ∉ headers.map Prod.fst ∧ r.headers_ name = some value) := by
  induction headers generalizing r with
  | nil => simp [addHeaders]
  | cons header headers ih =>
    obtain ⟨first, firstValue⟩ := header
    obtain ⟨plain, namesPlain'⟩ := List.forall_mem_cons.mp namesPlain
    obtain ⟨visible, valuesPlain'⟩ := List.forall_mem_cons.mp valuesPlain
    rw [List.map_cons, List.nodup_cons] at distinct
    have added := addHeader_headerLine (r := r) plain.1 visible.2.1 visible.2.2
    have fold : addHeaders r ((first, firstValue) :: headers |>.map headerLine) =
        addHeaders (r.addHeader (headerLine (first, firstValue))
          ((headerLine (first, firstValue)).idxOf 58)) (headers.map headerLine) := rfl
    rw [fold, added, ih distinct.2 namesPlain' valuesPlain']
    by_cases same : name = first
    · subst same
      have absent : (name, value) ∉ headers := fun member =>
        distinct.1 (List.mem_map.mpr ⟨_, member, rfl⟩)
      simp [absent, distinct.1, eq_comm]
    · simp [same]

end

namespace RequestText

def head (text : RequestText) : Head where
  method := text.method
  target := text.path ++ text.query
  version := text.version
  headers := text.headers.map headerLine
  known := text.known
  spaceless := by
    rw [List.mem_append, not_or]
    exact ⟨text.pathPlain.1, text.queryPlain.2.1⟩
  stated := text.stated
  oneLine := by
    refine oneLine_requestLine (oneLine_append text.pathPlain.2.2 text.queryPlain.2.2 ?_)
    intro _
    rcases text.queryPlain.1 with none_ | start
    · simp [none_]
    · simp [start]
  headerLines := by
    intro line member
    obtain ⟨header, listed, rfl⟩ := List.mem_map.mp member
    refine ⟨oneLine_headerLine (text.namesPlain header listed).2
      (text.valuesPlain header listed).1, ?_⟩
    have colon : 58 ∈ ascii ": " := by decide
    simp [headerLine, colon]

theorem bytes_head (text : RequestText) : text.head.bytes = text.render := rfl

def start (text : RequestText) : HttpRequest :=
  { method_ := text.method, path_ := text.path, query_ := text.query, version_ := text.version }

theorem request_head (text : RequestText) :
    text.head.request = addHeaders text.start (text.headers.map headerLine) := by
  have url := processUrl_append (r := { method_ := text.method }) text.pathPlain.2.1 rfl
    text.queryPlain.1
  have line : (processUrl { method_ := text.method } (text.path ++ text.query)).setVersion
      text.version = text.start := by
    rw [url]
    rfl
  rw [← line]
  rfl

end RequestText

/-- A request that was written is read back with its method, path, query, version and
    headers, in whatever order these were written; what stands behind it is left. -/
theorem parseRequest_render (text : RequestText) (trailing : List UInt8) {b : Buffer}
    (valid : b.Valid) (content : b.readable = text.render ++ trailing) (t : Int) :
    ∃ q, parseRequest {} b t = .ok (some q) ∧ q.ok = true ∧ q.context.gotAll = true ∧
      q.context.request_.method_ = text.method ∧ q.context.request_.path_ = text.path ∧
      q.context.request_.query_ = text.query ∧ q.context.request_.version_ = text.version ∧
      (∀ name value, q.context.request_.headers_ name = some value ↔
        (name, value) ∈ text.headers) ∧
      q.buf.readable = trailing := by
  have reads := reads_head text.head oneLine_nil List.not_mem_nil trailing
  have whole : text.head.endedBy [] ++ trailing = b.readable :=
    (congrArg (· ++ trailing) text.bytes_head).trans content.symm
  rw [whole] at reads
  obtain ⟨q, ran, shows_⟩ := parseRequest_reads (c := {}) (t := t) valid rfl reads
  have request : q.context.request_.setReceiveTime 0 =
      addHeaders text.start (text.headers.map headerLine) :=
    (congrArg HttpContext.request_ shows_.context).trans text.request_head
  have fields := request.trans (addHeaders_fields _ _)
  obtain ⟨ok, complete⟩ := verdict_gotAll.mp shows_.verdict
  refine ⟨q, ran, ok, complete, congrArg HttpRequest.method_ fields,
    congrArg HttpRequest.path_ fields, congrArg HttpRequest.query_ fields,
    congrArg HttpRequest.version_ fields, ?_, shows_.readable⟩
  intro name value
  have table := headers_addHeaders (r := text.start) text.distinct text.namesPlain
    text.valuesPlain name value
  rw [← request] at table
  refine table.trans ?_
  simp [RequestText.start]

def postText : RequestText where
  method := .kPost
  path := ascii "/a"
  query := ascii "?b=c"
  version := .kHttp10
  headers := [(ascii "Host", ascii "a b:80"), (ascii "Accept", [])]
  known := by decide
  pathPlain := by decide
  queryPlain := by decide
  stated := by decide
  distinct := by decide
  namesPlain := by decide
  valuesPlain := by decide +kernel

theorem parseRequest_render_of_post :
    ∃ (b : Buffer) (q : Parsing), b.Valid ∧ b.readable = postText.render ++ ascii "GET" ∧
      parseRequest {} b 0 = .ok (some q) ∧ q.context.request_.path_ = ascii "/a" ∧
      q.context.request_.headers_ (ascii "Host") = some (ascii "a b:80") ∧
      q.buf.readable = ascii "GET" := by
  obtain ⟨b, valid, content⟩ := Buffer.exists_readable (postText.render ++ ascii "GET")
  obtain ⟨q, ran, -, -, -, path, -, -, headers, left⟩ :=
    parseRequest_render postText (ascii "GET") valid content 0
  exact ⟨b, q, valid, content, ran, path, (headers _ _).mpr (by decide), left⟩

end HttpContext
end Muduo
