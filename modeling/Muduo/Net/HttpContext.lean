import Mathlib.Data.List.DropRight
import Muduo.Lib.Loop
import Muduo.Net.Buffer

/-!
HttpRequest.h and HttpContext.cc: the parser of a request head. A pair of pointers
into the line is the list of bytes between them, std::find in it is List.idxOf, which
is the length of the list when there is nothing to find. The header table is a partial
function. isspace is that of the C locale.
-/
namespace Muduo
open Lib

def ascii (text : String) : List UInt8 := text.toList.map fun c => UInt8.ofNat c.toNat

def isspace (c : UInt8) : Bool := c = 32 || (9 ≤ c && c ≤ 13)

namespace HttpRequest

inductive Method where
  | kInvalid | kGet | kPost | kHead | kPut | kDelete
  deriving DecidableEq, Repr

inductive Version where
  | kUnknown | kHttp10 | kHttp11
  deriving DecidableEq, Repr

end HttpRequest

structure HttpRequest where
  method_ : HttpRequest.Method := .kInvalid
  version_ : HttpRequest.Version := .kUnknown
  path_ : List UInt8 := []
  query_ : List UInt8 := []
  receiveTime_ : Int := 0
  headers_ : List UInt8 → Option (List UInt8) := fun _ => none

namespace HttpRequest

def setVersion (r : HttpRequest) (v : Version) : HttpRequest := { r with version_ := v }

def methodOf (m : List UInt8) : Method :=
  if m = ascii "GET" then .kGet
  else if m = ascii "POST" then .kPost
  else if m = ascii "HEAD" then .kHead
  else if m = ascii "PUT" then .kPut
  else if m = ascii "DELETE" then .kDelete
  else .kInvalid

def setMethod (r : HttpRequest) (m : List UInt8) : Checked (HttpRequest × Bool) := do
  assertThat (r.method_ = .kInvalid) "method_ == kInvalid"
  let r := { r with method_ := methodOf m }
  pure (r, r.method_ ≠ .kInvalid)

def setPath (r : HttpRequest) (path : List UInt8) : HttpRequest := { r with path_ := path }

def setQuery (r : HttpRequest) (query : List UInt8) : HttpRequest := { r with query_ := query }

def setReceiveTime (r : HttpRequest) (t : Int) : HttpRequest := { r with receiveTime_ := t }

def addHeader (r : HttpRequest) (line : List UInt8) (colon : Nat) : HttpRequest :=
  let field := line.take colon
  let value := ((line.drop (colon + 1)).dropWhile isspace).rdropWhile isspace
  { r with headers_ := Function.update r.headers_ field (some value) }

end HttpRequest

namespace HttpContext

inductive HttpRequestParseState where
  | kExpectRequestLine | kExpectHeaders | kExpectBody | kGotAll
  deriving DecidableEq, Repr

end HttpContext

structure HttpContext where
  state_ : HttpContext.HttpRequestParseState := .kExpectRequestLine
  request_ : HttpRequest := {}

namespace HttpContext

def gotAll (c : HttpContext) : Bool := c.state_ = .kGotAll

def processUrl (r : HttpRequest) (url : List UInt8) : HttpRequest :=
  let question := url.idxOf 63
  if question ≠ url.length then
    (r.setPath (url.take question)).setQuery (url.drop question)
  else
    r.setPath url

def processVersion (r : HttpRequest) (version : List UInt8) : HttpRequest × Bool :=
  if version.length = 8 ∧ version.take 7 = ascii "HTTP/1." then
    if version.getLast? = some 49 then (r.setVersion .kHttp11, true)
    else if version.getLast? = some 48 then (r.setVersion .kHttp10, true)
    else (r, false)
  else (r, false)

/-- The request is filled while the line is read: after a failure it keeps what was
    set before. -/
def processRequestLine (r : HttpRequest) (line : List UInt8) : Checked (HttpRequest × Bool) := do
  let space := line.idxOf 32
  if space ≠ line.length then
    let (r, known) ← r.setMethod (line.take space)
    if known then
      let line := line.drop (space + 1)
      let space := line.idxOf 32
      if space ≠ line.length then
        pure (processVersion (processUrl r (line.take space)) (line.drop (space + 1)))
      else pure (r, false)
    else pure (r, false)
  else pure (r, false)

structure Parsing where
  context : HttpContext
  buf : Buffer
  ok : Bool := true

def expectRequestLine (receiveTime : Int) (p : Parsing) : Checked (Parsing × Bool) :=
  match p.buf.findCRLF with
  | some crlf => do
    let (request, ok) ← processRequestLine p.context.request_ (window p.buf.buffer_ p.buf.peek crlf)
    if ok then
      let buf ← p.buf.retrieveUntil (crlf + 2)
      pure (⟨⟨.kExpectHeaders, request.setReceiveTime receiveTime⟩, buf, ok⟩, true)
    else
      pure (⟨{ p.context with request_ := request }, p.buf, ok⟩, false)
  | none => pure (p, false)

def expectHeaders (p : Parsing) : Checked (Parsing × Bool) :=
  match p.buf.findCRLF with
  | some crlf => do
    let line := window p.buf.buffer_ p.buf.peek crlf
    let colon := line.idxOf 58
    if colon ≠ line.length then
      let buf ← p.buf.retrieveUntil (crlf + 2)
      pure ({ p with
        context := { p.context with request_ := p.context.request_.addHeader line colon }
        buf := buf }, true)
    else
      -- A line without a colon ends the head, whether it is empty or not.
      let buf ← p.buf.retrieveUntil (crlf + 2)
      pure ({ p with context := { p.context with state_ := .kGotAll }, buf := buf }, false)
  | none => pure (p, false)

/-- One turn of the loop of parseRequest. The last two states have no exit. -/
def turn (receiveTime : Int) (p : Parsing) : Checked (Parsing × Bool) :=
  match p.context.state_ with
  | .kExpectRequestLine => expectRequestLine receiveTime p
  | .kExpectHeaders => expectHeaders p
  | .kExpectBody => pure (p, true)
  | .kGotAll => pure (p, true)

/-- None means that the loop is still running after one turn for each line that the
    buffer can hold and one more. -/
def parseRequest (c : HttpContext) (buf : Buffer) (receiveTime : Int) : Checked (Option Parsing) :=
  whileLoop (turn receiveTime) (buf.readableBytes / 2 + 1) ⟨c, buf, true⟩

variable {r : HttpRequest} {t : Int}

theorem setMethod_invalid (invalid : r.method_ = .kInvalid) (m : List UInt8) :
    r.setMethod m = .ok ({ r with method_ := HttpRequest.methodOf m },
      HttpRequest.methodOf m ≠ .kInvalid) := by
  simp [HttpRequest.setMethod, invalid]

theorem processRequestLine_invalid (invalid : r.method_ = .kInvalid) (line : List UInt8) :
    ∃ request ok, processRequestLine r line = .ok (request, ok) := by
  simp only [processRequestLine, setMethod_invalid invalid, ok_bind, pure_eq_ok]
  split
  · split
    · split
      · exact ⟨_, _, rfl⟩
      · exact ⟨_, _, rfl⟩
    · exact ⟨_, _, rfl⟩
  · exact ⟨_, _, rfl⟩

/-! The time of receipt is not read. -/

theorem setMethod_setReceiveTime (m : List UInt8) :
    (r.setReceiveTime t).setMethod m =
      (r.setMethod m).map fun p => (p.1.setReceiveTime t, p.2) := by
  by_cases invalid : r.method_ = .kInvalid
  · rw [setMethod_invalid invalid, setMethod_invalid (r := r.setReceiveTime t) invalid]
    rfl
  · have invalid' : (r.setReceiveTime t).method_ ≠ .kInvalid := invalid
    simp only [HttpRequest.setMethod, assertThat_of_false invalid, assertThat_of_false invalid']
    rfl

theorem processUrl_setReceiveTime (url : List UInt8) :
    processUrl (r.setReceiveTime t) url = (processUrl r url).setReceiveTime t := by
  simp only [processUrl]
  split
  · rfl
  · rfl

theorem processVersion_setReceiveTime (version : List UInt8) :
    processVersion (r.setReceiveTime t) version =
      ((processVersion r version).1.setReceiveTime t, (processVersion r version).2) := by
  unfold processVersion
  split
  · split
    · rfl
    · split
      · rfl
      · rfl
  · rfl

theorem processRequestLine_setReceiveTime (line : List UInt8) :
    processRequestLine (r.setReceiveTime t) line =
      (processRequestLine r line).map fun p => (p.1.setReceiveTime t, p.2) := by
  simp only [processRequestLine, setMethod_setReceiveTime]
  split
  · cases r.setMethod (line.take (line.idxOf 32)) with
    | error e => rfl
    | ok p =>
      simp only [Except.map, ok_bind, pure_eq_ok, processUrl_setReceiveTime,
        processVersion_setReceiveTime]
      split
      · split
        · rfl
        · rfl
      · rfl
  · rfl

end HttpContext
end Muduo
