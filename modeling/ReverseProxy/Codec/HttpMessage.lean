import ReverseProxy.Text.Ascii
import ReverseProxy.Text.Lines

/-!
# Protocol-independent HTTP messages

The header map and the request and response heads that the codecs exchange with
the relay (`codec/http_message.h`).  Header names keep the case they were
received with and are compared without case; insertion order is kept.
-/

namespace ReverseProxy

open Text

/-- The error codes that cross the transport and codec interfaces. -/
inductive ErrorCode where
  | eof
  | invalidArgument
  | operationNotSupported
  | connectionReset
  | notFound
  | hostUnreachable
  | messageSize
  /-- Any other code that the operating system may report. -/
  | other (code : ℕ)
  deriving DecidableEq, Repr

/-- `HeaderMap`. -/
structure HeaderMap where
  entries : List (Bytes × Bytes) := []
  deriving DecidableEq, Repr

namespace HeaderMap

/-- `add`. -/
def add (headers : HeaderMap) (key value : Bytes) : HeaderMap :=
  ⟨headers.entries ++ [(key, value)]⟩

/-- Removes all entries for the key. -/
def remove (headers : HeaderMap) (key : Bytes) : HeaderMap :=
  ⟨headers.entries.filter fun entry => lower entry.1 ≠ lower key⟩

/-- `set`. -/
def set (headers : HeaderMap) (key value : Bytes) : HeaderMap :=
  (headers.remove key).add key value

/-- First value for the key. -/
def get (headers : HeaderMap) (key : Bytes) : Option Bytes :=
  (headers.entries.find? fun entry => lower entry.1 = lower key).map Prod.snd

/-- One line of the wire format, without its terminator. -/
def wireLine (entry : Bytes × Bytes) : Bytes :=
  entry.1 ++ ascii ": " ++ entry.2

/-- Serializes to wire format: `Key: Value` and CRLF for each entry. -/
def toWire (headers : HeaderMap) : Bytes :=
  headers.entries.flatMap fun entry => wireLine entry ++ crlf

theorem toWire_eq_unlines (headers : HeaderMap) :
    headers.toWire = unlines crlf (headers.entries.map wireLine) := by
  simp [toWire, unlines, List.flatMap_map]

@[simp]
theorem entries_add (headers : HeaderMap) (key value : Bytes) :
    (headers.add key value).entries = headers.entries ++ [(key, value)] := rfl

@[simp]
theorem entries_set (headers : HeaderMap) (key value : Bytes) :
    (headers.set key value).entries =
      (headers.entries.filter fun entry => lower entry.1 ≠ lower key) ++ [(key, value)] := rfl

end HeaderMap

/-- `HttpStatus`: the status codes the proxy itself answers with. -/
inductive HttpStatus where
  | ok
  | badRequest
  | notFound
  | badGateway
  | serviceUnavailable
  deriving DecidableEq, Repr

namespace HttpStatus

/-- The number of a status. -/
def code : HttpStatus → ℤ
  | .ok => 200
  | .badRequest => 400
  | .notFound => 404
  | .badGateway => 502
  | .serviceUnavailable => 503

/-- `status_reason`. -/
def statusReason : HttpStatus → Bytes
  | .ok => ascii "OK"
  | .badRequest => ascii "Bad Request"
  | .notFound => ascii "Not Found"
  | .badGateway => ascii "Bad Gateway"
  | .serviceUnavailable => ascii "Service Unavailable"

end HttpStatus

/-- `HttpRequestHead`. -/
structure HttpRequestHead where
  method : Bytes := []
  /-- Wire protocol version as received. -/
  version : Bytes := ascii "HTTP/1.1"
  /-- Request-target in origin-form. -/
  path : Bytes := []
  scheme : Bytes := []
  /-- `host[:port]`. -/
  authority : Bytes := []
  /-- The request-target was in absolute-form. -/
  absoluteTarget : Bool := false
  headers : HeaderMap := {}
  contentLength : Option ℕ := none
  deriving DecidableEq, Repr

/-- `HttpResponseHead`. -/
structure HttpResponseHead where
  statusCode : ℤ := 0
  reason : Bytes := []
  version : Bytes := ascii "HTTP/1.1"
  headers : HeaderMap := {}
  contentLength : Option ℕ := none
  deriving DecidableEq, Repr

/-- The length both codecs take from the first `Content-Length` entry of a header map. -/
def HeaderMap.declaredLength (headers : HeaderMap) : Option ℕ :=
  (headers.get (ascii "content-length")).map fun value => (strtoul 10 value).getD 0

end ReverseProxy
