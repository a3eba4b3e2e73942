import Muduo.Lib.Faults
import Muduo.Lib.Text
import Muduo.Net.HttpContext
import Muduo.Net.TcpConnection

/-!
HttpServer.cc and HttpResponse.cc, for one connection. A label is a chunk with its time
of receipt: the chunk is appended to the input buffer, and onMessage is called. Of the
connection there is what send and shutdown decide by, its state, and what send has been
given to write. The peer has not closed; reading goes on after a shutdown.

httpCallback_ is a parameter. It may keep data of its own between calls and fills the
response that it is handed. A response lists its headers in the order of their map.
-/
namespace Muduo
open Lib

def HttpRequest.getHeader (r : HttpRequest) (field : List UInt8) : List UInt8 :=
  (r.headers_ field).getD []

def HttpContext.reset (c : HttpContext) : HttpContext :=
  { c with state_ := .kExpectRequestLine, request_ := {} }

namespace HttpResponse

inductive HttpStatusCode where
  | kUnknown | k200Ok | k301MovedPermanently | k400BadRequest | k404NotFound
  deriving DecidableEq, Repr

def HttpStatusCode.value : HttpStatusCode → Nat
  | .kUnknown => 0
  | .k200Ok => 200
  | .k301MovedPermanently => 301
  | .k400BadRequest => 400
  | .k404NotFound => 404

end HttpResponse

structure HttpResponse where
  headers_ : List (List UInt8 × List UInt8) := []
  statusCode_ : HttpResponse.HttpStatusCode := .kUnknown
  statusMessage_ : List UInt8 := []
  closeConnection_ : Bool
  body_ : List UInt8 := []

namespace HttpResponse
open Buffer (kCRLF)

def printed (text : List Char) : List UInt8 := ascii (String.ofList (snprintf 32 text))

/-- The arguments of the calls of Buffer::append, in order. -/
def pieces (r : HttpResponse) : List (List UInt8) :=
  [printed ("HTTP/1.1 ".toList ++ decimal r.statusCode_.value ++ [' ']), r.statusMessage_, kCRLF] ++
  (if r.closeConnection_ then
    [ascii "Connection: close\r\n"]
  else
    [printed ("Content-Length: ".toList ++ decimal r.body_.length ++ "\r\n".toList),
      ascii "Connection: Keep-Alive\r\n"]) ++
  r.headers_.flatMap (fun header => [header.1, ascii ": ", header.2, kCRLF]) ++
  [kCRLF, r.body_]

def appendToBuffer (r : HttpResponse) (output : Buffer) : Checked Buffer :=
  r.pieces.foldlM Buffer.append output

theorem appendAll_spec {output : Buffer} (valid : output.Valid) (pieces : List (List UInt8)) :
    ∃ buf, pieces.foldlM Buffer.append output = .ok buf ∧ buf.Valid ∧
      buf.readable = output.readable ++ pieces.flatten := by
  induction pieces generalizing output with
  | nil => exact ⟨output, rfl, valid, by simp⟩
  | cons piece pieces ih =>
    obtain ⟨buf, appended, valid', content⟩ := Buffer.append_spec valid piece
    obtain ⟨last, rest, valid'', all⟩ := ih valid'
    refine ⟨last, ?_, valid'', ?_⟩
    · rw [List.foldlM_cons, appended, ok_bind, rest]
    · rw [all, content, List.flatten_cons, List.append_assoc]

end HttpResponse

namespace HttpServer

inductive Event where
  | called (request : HttpRequest)
  | answered (response : HttpResponse)
  | badRequest

structure Session (σ : Type) where
  /-- What httpCallback_ keeps. -/
  callback : σ
  context : HttpContext := {}
  inputBuffer_ : Buffer
  state_ : TcpConnection.StateE := .kConnected
  sent : List (List UInt8) := []
  journal : List Event := []
  /-- The bytes that have come behind the last request that was answered. -/
  since : List UInt8 := []
  fault : Option String := none

end HttpServer

structure HttpServer (σ : Type) where
  httpCallback_ : σ → HttpRequest → HttpResponse → σ × HttpResponse

namespace HttpServer
variable {σ : Type}

namespace Session

def send (s : Session σ) (message : List UInt8) : Session σ :=
  if s.state_ = .kConnected then { s with sent := s.sent ++ [message] } else s

def shutdown (s : Session σ) : Session σ :=
  if s.state_ = .kConnected then { s with state_ := .kDisconnecting } else s

def note (s : Session σ) (e : Event) : Session σ := { s with journal := s.journal ++ [e] }

/-- The end of onRequest, with the response that httpCallback_ has filled. -/
def answer (s : Session σ) (response : HttpResponse) : Checked (Session σ) := do
  let buf ← response.appendToBuffer (← Buffer.new Buffer.kInitialSize)
  let s := (s.send buf.readable).note (.answered response)
  pure (if response.closeConnection_ then s.shutdown else s)

end Session

variable (server : HttpServer σ)

/-- The response to this request closes the connection, unless httpCallback_ says
    otherwise. -/
def close (req : HttpRequest) : Bool :=
  let connection := req.getHeader (ascii "Connection")
  connection = ascii "close" || (req.version_ = .kHttp10 && connection ≠ ascii "Keep-Alive")

def onRequest (s : Session σ) (req : HttpRequest) : Checked (Session σ) :=
  let (callback, response) := server.httpCallback_ s.callback req { closeConnection_ := close req }
  ({ s with callback }.note (.called req)).answer response

/-- None when parseRequest does not end. -/
def onMessage (s : Session σ) (receiveTime : Int) : Checked (Option (Session σ)) := do
  match ← s.context.parseRequest s.inputBuffer_ receiveTime with
  | none => pure none
  | some parsed =>
    let s := { s with context := parsed.context, inputBuffer_ := parsed.buf }
    let s :=
      if parsed.ok then s
      else ((s.send (ascii "HTTP/1.1 400 Bad Request\r\n\r\n")).shutdown).note .badRequest
    if s.context.gotAll then
      let s ← server.onRequest s s.context.request_
      pure (some { s with context := s.context.reset, since := s.inputBuffer_.readable })
    else pure (some s)

def handleRead (s : Session σ) (chunk : List UInt8 × Int) : Checked (Option (Session σ)) := do
  let buf ← s.inputBuffer_.append chunk.1
  server.onMessage { s with inputBuffer_ := buf, since := s.since ++ chunk.1 } chunk.2

def faults : Faults (Session σ) := ⟨Session.fault, fun s e => { s with fault := some e }⟩

def machine : Machine (Session σ) (List UInt8 × Int) :=
  faults.machine fun s chunk => returned (server.handleRead s chunk)

def onConnection (callback : σ) (inputBuffer_ : Buffer) : Session σ := { callback, inputBuffer_ }

end HttpServer
end Muduo
