import ReverseProxy.Codec.Pump
import ReverseProxy.Codec.H1.Stream
import ReverseProxy.Codec.H3.Message
import ReverseProxy.Relay.Dispatch

/-!
# The relay as a state machine

`RelaySession` (`proxy/relay_session.cpp`) together with the loops that the codecs
run on its behalf.  Every asynchronous call is an action plus an outstanding operation
(`Op`) that records what its callback captured; `step` delivers one completion, one
timer event or one `graceful_close` and runs the callback to its end.  Which
outstanding operation completes next, and with what, is up to the input.

A callback that dereferences a null `backend_` ends the machine: `crashed` is set and
no further step is possible.
-/

namespace ReverseProxy

open Text

/-- The codec of a stream. -/
inductive Codec where
  | h1
  | h3
  deriving DecidableEq, Repr

/-- A backend connection (TCP) or request stream (QUIC). -/
structure TransportStream where
  id : ℕ
  protocol : TransportProtocol
  deriving DecidableEq, Repr

/-- The two sides of a relay. -/
inductive Peer where
  | client
  | backend (stream : TransportStream)
  deriving DecidableEq, Repr

namespace RelaySession

/-- `RelaySession::Phase`. -/
inductive Phase where
  | request
  | forward
  | response
  | bridge
  | closed
  deriving DecidableEq, Repr

/-- Which callback `async_write_request` or `async_write_response` was given. -/
inductive WriteThen where
  /-- The one in `send_backend_request`. -/
  | requestWritten (retryAllowed : Bool)
  /-- The last one in `response_phase`. -/
  | responseWritten (backendKeepAlive : Bool)
  /-- The one for a 101 in `response_phase`. -/
  | upgraded
  /-- The one in `start_tunnel`. -/
  | tunnelOpened
  /-- The one in `write_error`. -/
  | errorWritten
  deriving DecidableEq, Repr

/-- Which callback the pool was given, with what it captured. -/
inductive ConnectThen where
  | useBackend (head : HttpRequestHead) (body : Option BodySource)
  /-- The one in `handle_connect`. -/
  | tunnel
  /-- The one in `reconnect_backend_fresh`. -/
  | reconnected
  deriving DecidableEq, Repr

/-- What the pool is asked for. -/
inductive ConnectTarget where
  /-- `async_connect`. -/
  | group (backendId : Bytes)
  /-- `async_connect_fresh`. -/
  | fresh (endpoint : BackendEndpoint)
  deriving DecidableEq, Repr

/-- A body source and the stream it reads. -/
structure MessageBody where
  peer : Peer
  source : BodySource
  deriving DecidableEq, Repr

/-- An asynchronous operation that has not completed yet. -/
inductive Op where
  /-- A header read of `H1Codec`, with what was read before. -/
  | readHead (peer : Peer) (buf : Bytes)
  /-- `async_take_headers`. -/
  | takeHeaders (peer : Peer)
  | connect (target : ConnectTarget) (next : ConnectThen)
  /-- The write of a message head: header bytes over H1, a header list over H3. -/
  | writeHead (dest : Peer) (codec : Codec) (body : Option MessageBody) (next : WriteThen)
  /-- A read that a body source makes from its stream, inside `pump_body_to_stream`. -/
  | readBody (dest : Peer) (codec : Codec) (body : MessageBody) (capacity : ℕ) (next : WriteThen)
  /-- The write of one piece inside `pump_body_to_stream`. -/
  | writeBody (dest : Peer) (codec : Codec) (body : MessageBody) (next : WriteThen)
  /-- The shutdown with which `H3Codec` ends a message. -/
  | finish (dest : Peer) (next : WriteThen)
  | tunnelRead (src dst : Peer)
  | tunnelWrite (src dst : Peer)
  | drainRead
  deriving DecidableEq, Repr

/-- What an asynchronous operation completes with. -/
inductive Completion where
  /-- A read; `examined` is the byte that a chunked line read looks at instead. -/
  | read (result : ReadResult) (examined : UInt8)
  /-- A write or a shutdown. -/
  | written (ec : Option ErrorCode)
  | headers (result : Except ErrorCode HeaderList)
  | connected (result : Except ErrorCode (TransportStream × BackendEndpoint × Bool))
  deriving DecidableEq

/-- What a relay does: the calls it makes, and points of its own code that it passes. -/
inductive Action where
  | read (peer : Peer) (capacity : ℕ)
  | takeHeaders (peer : Peer)
  | write (peer : Peer) (data : Bytes)
  | sendHeaders (peer : Peer) (headers : HeaderList)
  | shutdown (peer : Peer)
  | connect (target : ConnectTarget)
  | release (endpoint : BackendEndpoint) (stream : TransportStream)
  /-- A call through the null `backend_`. -/
  | nullBackend
  /-- A read has completed with these bytes. -/
  | received (peer : Peer) (data : Bytes)
  /-- `goto_phase` has changed the phase. -/
  | phase (phase : Phase)
  /-- A request has been parsed. -/
  | request (parsed : ParsedRequest)
  /-- `send_backend_request` writes this head to this stream. -/
  | requestTo (stream : TransportStream) (head : HttpRequestHead)
  /-- A response has been parsed. -/
  | response (stream : TransportStream) (parsed : ParsedResponse)
  /-- A body source has handed these bytes to the writer of a message. -/
  | delivered (dest : Peer) (data : Bytes)
  /-- A body source has reported its end to the writer of a message. -/
  | exhausted (dest : Peer)
  /-- The callback of a message writer runs. -/
  | messageDone (dest : Peer) (ec : Option ErrorCode)
  /-- The handler of the wait that this kick started runs without an error code. -/
  | idleTimeout (kick : ℕ)
  deriving DecidableEq

/-- `ProxyStats`, as far as a relay counts in it. -/
structure Stats where
  requests : ℕ := 0
  respOk : ℕ := 0
  respErr : ℕ := 0
  latCount : ℕ := 0
  backendConnects : ℕ := 0
  deriving DecidableEq, Repr

/-- `idle_timer_`; waits are numbered by the kick that started them. -/
structure IdleTimer where
  kicks : ℕ := 0
  /-- The wait that has not completed yet. -/
  armed : Option ℕ := none
  /-- Waits that have expired and whose handlers are queued. -/
  expired : List ℕ := []
  deriving DecidableEq, Repr

end RelaySession

/-- `RelaySession`. -/
structure RelaySession where
  clientCodec : Codec
  rules : List Router.Rule
  /-- In seconds; `0` disables the timer. -/
  idleTimeout : ℕ
  backend : Option TransportStream := none
  backendCodec : Codec := .h1
  backendEndpoint : BackendEndpoint := { backendId := [], host := [], port := 0 }
  backendFromPool : Bool := false
  pendingHead : Option HttpRequestHead := none
  /-- Only ever tested for presence; the pump holds the source itself. -/
  pendingBody : Option BodySource := none
  requestMethod : Bytes := []
  clientVersion : Bytes := []
  clientKeepAlive : Bool := false
  requestIsUpgrade : Bool := false
  done : Bool := false
  phase : RelaySession.Phase := .request
  draining : Bool := false
  idleTimer : RelaySession.IdleTimer := {}
  stats : RelaySession.Stats := {}
  crashed : Bool := false
  /-- The operations whose completion is still to come. -/
  pending : List RelaySession.Op := []
  /-- What the current step has done so far. -/
  out : List RelaySession.Action := []
  deriving DecidableEq

namespace RelaySession

/-- Does something visible. -/
def emit (relay : RelaySession) (action : Action) : RelaySession :=
  { relay with out := relay.out ++ [action] }

/-- Starts an operation. -/
def await (relay : RelaySession) (op : Op) : RelaySession :=
  { relay with pending := relay.pending ++ [op] }

/-- `async_read_some`. -/
def readFrom (relay : RelaySession) (peer : Peer) (capacity : ℕ) (op : Op) : RelaySession :=
  (relay.emit (.read peer capacity)).await op

/-- `async_write_some`. -/
def writeTo (relay : RelaySession) (peer : Peer) (data : Bytes) (op : Op) : RelaySession :=
  (relay.emit (.write peer data)).await op

/-- Follows the null `backend_`. -/
def crash (relay : RelaySession) : RelaySession :=
  { relay.emit .nullBackend with crashed := true }

/-! ## Phases, timer and the ends of a relay -/

/-- `goto_phase`. -/
def gotoPhase (relay : RelaySession) (phase : Phase) : RelaySession :=
  if relay.phase = phase then relay else { relay.emit (.phase phase) with phase }

/-- `kick_idle_timer`. -/
def kickIdleTimer (relay : RelaySession) : RelaySession :=
  if relay.done ∨ relay.idleTimeout = 0 then relay
  else
    { relay with
      idleTimer :=
        { relay.idleTimer with
          kicks := relay.idleTimer.kicks + 1, armed := some (relay.idleTimer.kicks + 1) } }

/-- `close_backend`. -/
def closeBackend (relay : RelaySession) : RelaySession :=
  match relay.backend with
  | none => relay
  | some stream => { relay.emit (.shutdown (.backend stream)) with backend := none }

/-- `teardown`. -/
def teardown (relay : RelaySession) : RelaySession :=
  if relay.done then relay
  else
    let relay :=
      { relay with done := true, idleTimer := { relay.idleTimer with armed := none } }
    ((relay.gotoPhase .closed).emit (.shutdown .client)).closeBackend

/-- `drain_client`. -/
def drainClient (relay : RelaySession) : RelaySession :=
  if relay.done then relay else relay.readFrom .client 4096 .drainRead

/-- `gracefully_close_client`. -/
def gracefullyCloseClient (relay : RelaySession) : RelaySession :=
  if relay.done then relay
  else (RelaySession.emit { relay with draining := true } (.shutdown .client)).drainClient

/-- `graceful_close`. -/
def gracefulClose (relay : RelaySession) : RelaySession :=
  if relay.done then relay
  else if relay.phase = .request then
    RelaySession.emit { relay with draining := true } (.shutdown .client)
  -- an exchange under way is finished first; `after_client_response` looks at the flag
  else { relay with draining := true }

/-! ## Between two exchanges -/

/-- `async_parse_request` of the client codec. -/
def asyncParseRequest (relay : RelaySession) : RelaySession :=
  match relay.clientCodec with
  | .h1 => relay.readFrom .client H1Codec.readSize (.readHead .client [])
  | .h3 => (relay.emit (.takeHeaders .client)).await (.takeHeaders .client)

/-- `request_phase`. -/
def requestPhase (relay : RelaySession) : RelaySession :=
  ((relay.gotoPhase .request).kickIdleTimer).asyncParseRequest

/-- `after_client_response`. -/
def afterClientResponse (relay : RelaySession) : RelaySession :=
  if relay.draining then relay.gracefullyCloseClient
  else if relay.clientKeepAlive ∧ ¬relay.done ∧ relay.clientCodec = .h1 then relay.requestPhase
  else if relay.clientCodec = .h1 then relay.gracefullyCloseClient
  -- an HTTP/3 stream carries one exchange, and its codec has shut it down already
  else relay.drainClient

/-- `finish_backend`. -/
def finishBackend (relay : RelaySession) (keepAlive : Bool) : RelaySession :=
  let relay := { relay with pendingHead := none, pendingBody := none }
  match relay.backend with
  | none => relay
  | some stream =>
    if keepAlive then
      { relay.emit (.release relay.backendEndpoint stream) with backend := none }
    else relay.closeBackend

/-! ## Writing messages -/

/-- The first write of `async_write_request` and `async_write_response`. -/
def writeMessage (relay : RelaySession) (dest : Peer) (codec : Codec) (bytes : Bytes)
    (headers : HeaderList) (body : Option MessageBody) (next : WriteThen) : RelaySession :=
  match codec with
  | .h1 => relay.writeTo dest bytes (.writeHead dest codec body next)
  | .h3 => (relay.emit (.sendHeaders dest headers)).await (.writeHead dest codec body next)

/-- `async_write_response` on the client. -/
def writeResponse (relay : RelaySession) (head : HttpResponseHead) (body : Option MessageBody)
    (next : WriteThen) : RelaySession :=
  relay.writeMessage .client relay.clientCodec (H1Codec.responseBytes head)
    (H3Codec.responseHeaderList head) body next

/-- The head of a locally generated error response. -/
def errorHead (status : HttpStatus) (message : Bytes) : HttpResponseHead :=
  { statusCode := status.code
    reason := status.statusReason
    headers :=
      (HeaderMap.set {} (ascii "content-type") (ascii "text/plain")).set
        (ascii "content-length") (decimal message.length) }

/-- `write_error`. -/
def writeError (relay : RelaySession) (status : HttpStatus) (message : Bytes) : RelaySession :=
  RelaySession.writeResponse
    { relay with stats := { relay.stats with respErr := relay.stats.respErr + 1 } }
    (errorHead status message) (some ⟨.client, .buffer message 0⟩) .errorWritten

/-! ## Bridging -/

/-- The size of the buffer of a tunnel read. -/
def tunnelSize : ℕ := 16384

/-- `pump_bytes`. -/
def pumpBytes (relay : RelaySession) (src dst : Peer) : RelaySession :=
  relay.readFrom src tunnelSize (.tunnelRead src dst)

/-- `bridge_mode`. -/
def bridgeMode (relay : RelaySession) : RelaySession :=
  let relay := relay.gotoPhase .bridge
  match relay.backend with
  -- the first pump reads the client before the second one follows the null pointer
  | none => (relay.emit (.read .client tunnelSize)).crash
  | some stream => (relay.pumpBytes .client (.backend stream)).pumpBytes (.backend stream) .client

/-! ## Reaching the backend -/

/-- Asks the pool for a connection. -/
def connect (relay : RelaySession) (target : ConnectTarget) (next : ConnectThen) :
    RelaySession :=
  (relay.emit (.connect target)).await (.connect target next)

/-- `send_backend_request`. -/
def sendBackendRequest (relay : RelaySession) (retryAllowed : Bool) : RelaySession :=
  match relay.backend, relay.pendingHead with
  | some stream, some head =>
    (relay.emit (.requestTo stream head)).writeMessage (.backend stream) relay.backendCodec
      (H1Codec.requestBytes head) (H3Codec.requestHeaderList head)
      (relay.pendingBody.map fun source => ⟨.client, source⟩) (.requestWritten retryAllowed)
  | _, _ => relay.crash

/-- `reconnect_backend_fresh`. -/
def reconnectBackendFresh (relay : RelaySession) : RelaySession :=
  relay.closeBackend.connect (.fresh relay.backendEndpoint) .reconnected

/-- `start_tunnel`. -/
def startTunnel (relay : RelaySession) : RelaySession :=
  relay.writeResponse { statusCode := 200, reason := ascii "Connection Established" } none
    .tunnelOpened

/-- `backend_codec_` for an endpoint. -/
def codecFor (endpoint : BackendEndpoint) : Codec :=
  if endpoint.protocol = .QUIC then .h3 else .h1

/-- The callback of the connect. -/
def useBackend (relay : RelaySession) (stream : TransportStream) (endpoint : BackendEndpoint)
    (fromPool : Bool) (head : HttpRequestHead) (body : Option BodySource) : RelaySession :=
  let relay := { relay with backend := some stream, backendEndpoint := endpoint }.kickIdleTimer
  let connects := relay.stats.backendConnects + if fromPool then 0 else 1
  sendBackendRequest
    { relay with
      backendCodec := codecFor endpoint, backendFromPool := fromPool
      stats := { relay.stats with backendConnects := connects }
      pendingHead := some head, pendingBody := body }
    true

/-- The callbacks that the pool is given. -/
def onConnected (relay : RelaySession) (next : ConnectThen)
    (result : Except ErrorCode (TransportStream × BackendEndpoint × Bool)) : RelaySession :=
  match next, result with
  | .useBackend _ _, .error _ => relay.writeError .badGateway (ascii "upstream unreachable\n")
  | .useBackend head body, .ok (stream, endpoint, fromPool) =>
    relay.useBackend stream endpoint fromPool head body
  | .tunnel, .error _ => relay.writeError .badGateway (ascii "connect failed\n")
  | .tunnel, .ok (stream, endpoint, _) =>
    startTunnel { relay with backend := some stream, backendEndpoint := endpoint }
  | .reconnected, .error _ => relay.writeError .badGateway (ascii "upstream unreachable\n")
  | .reconnected, .ok (stream, endpoint, _) =>
    let connects := relay.stats.backendConnects + 1
    sendBackendRequest
      { relay with
        backend := some stream, backendEndpoint := endpoint, backendFromPool := false
        stats := { relay.stats with backendConnects := connects } }
      false

/-- `is_upgrade_request`. -/
def isUpgradeRequest (head : HttpRequestHead) : Bool :=
  (head.headers.get (ascii "upgrade")).isSome &&
    match head.headers.get (ascii "connection") with
    | some value => H1Codec.contains (ascii "upgrade") (lower value)
    | none => false

/-- The callback of `request_phase` for a parsed request. -/
def onRequest (relay : RelaySession) (parsed : ParsedRequest) : RelaySession :=
  let relay := relay.gotoPhase .forward
  let relay :=
    ({ relay with
        stats := { relay.stats with requests := relay.stats.requests + 1 }
        clientKeepAlive := parsed.keepAlive
        requestMethod := parsed.head.method
        clientVersion := parsed.head.version
        requestIsUpgrade := isUpgradeRequest parsed.head }.kickIdleTimer).emit (.request parsed)
  match dispatch relay.rules parsed.head with
  | .tunnel target => relay.connect (.fresh target) .tunnel
  | .direct target head => relay.connect (.fresh target) (.useBackend head parsed.body)
  | .routed backendId head => relay.connect (.group backendId) (.useBackend head parsed.body)
  | .reject status message => relay.writeError status message

/-! ## The response -/

/-- `async_parse_response` of the backend codec. -/
def asyncParseResponse (relay : RelaySession) : RelaySession :=
  match relay.backend with
  | none => relay.crash
  | some stream =>
    match relay.backendCodec with
    | .h1 => relay.readFrom (.backend stream) H1Codec.readSize (.readHead (.backend stream) [])
    | .h3 => (relay.emit (.takeHeaders (.backend stream))).await (.takeHeaders (.backend stream))

/-- `response_phase`. -/
def responsePhase (relay : RelaySession) : RelaySession :=
  ((relay.gotoPhase .response).kickIdleTimer).asyncParseResponse

/-- A response head goes to the client with the client's own version, if it sent one. -/
def clientHead (relay : RelaySession) (head : HttpResponseHead) : HttpResponseHead :=
  if relay.clientVersion = [] then head else { head with version := relay.clientVersion }

/-- The body that is relayed to the client: none in answer to HEAD. -/
def clientBody (relay : RelaySession) (stream : TransportStream) (parsed : ParsedResponse) :
    Option MessageBody :=
  if relay.requestMethod = ascii "HEAD" then none
  else parsed.body.map fun source => ⟨.backend stream, source⟩

/-- The counters after a parsed response. -/
def Stats.countResponse (stats : Stats) (statusCode : ℤ) : Stats :=
  let stats : Stats :=
    if 400 ≤ statusCode then { stats with respErr := stats.respErr + 1 }
    else { stats with respOk := stats.respOk + 1 }
  { stats with latCount := stats.latCount + 1 }

/-- The callback of `response_phase` for a parsed response. -/
def onResponse (relay : RelaySession) (stream : TransportStream) (parsed : ParsedResponse) :
    RelaySession :=
  let body := relay.clientBody stream parsed
  let relay :=
    ({ relay with stats := relay.stats.countResponse parsed.head.statusCode }.kickIdleTimer).emit
      (.response stream parsed)
  if relay.requestIsUpgrade ∧ parsed.head.statusCode = 101 then
    relay.writeResponse (relay.clientHead parsed.head) none .upgraded
  else
    relay.writeResponse (relay.clientHead parsed.head) body (.responseWritten parsed.keepAlive)

/-- The callback of `response_phase` for a response that could not be parsed. -/
def onResponseError (relay : RelaySession) : RelaySession :=
  relay.closeBackend.writeError .badGateway (ascii "backend response error\n")

/-! ## The ends of messages -/

/-- The callbacks that the message writers are given. -/
def resume (relay : RelaySession) (next : WriteThen) (ec : Option ErrorCode) : RelaySession :=
  match next, ec with
  | .requestWritten retryAllowed, some _ =>
    -- a body source cannot be read twice, so only requests without a body are sent again
    if retryAllowed ∧ relay.backendFromPool ∧ relay.pendingBody = none then
      relay.reconnectBackendFresh
    else relay.closeBackend.writeError .badGateway (ascii "backend write error\n")
  | .requestWritten _, none =>
    ({ relay with pendingHead := none, pendingBody := none }.kickIdleTimer).responsePhase
  -- whether the response has been written whole is not looked at
  | .responseWritten backendKeepAlive, _ =>
    (relay.finishBackend backendKeepAlive).afterClientResponse
  | .upgraded, some _ => relay.teardown
  | .upgraded, none => bridgeMode { relay with backendFromPool := false }
  | .tunnelOpened, some _ => relay.teardown
  | .tunnelOpened, none => relay.bridgeMode
  | .errorWritten, _ => relay.afterClientResponse

/-- A message writer calls its callback. -/
def messageDone (relay : RelaySession) (dest : Peer) (next : WriteThen)
    (ec : Option ErrorCode) : RelaySession :=
  (relay.emit (.messageDone dest ec)).resume next ec

/-- The end of a message: `H3Codec` forgets the error code and finishes the stream first. -/
def endMessage (relay : RelaySession) (dest : Peer) (codec : Codec) (next : WriteThen)
    (ec : Option ErrorCode) : RelaySession :=
  match codec with
  | .h1 => relay.messageDone dest next ec
  | .h3 => (relay.emit (.shutdown dest)).await (.finish dest next)

/-- `pump_body_to_stream` acting on what the body source does. -/
def pumpStep (relay : RelaySession) (dest : Peer) (codec : Codec) (body : MessageBody)
    (next : WriteThen) (bodyStep : BodySource × BodyStep) : RelaySession :=
  let body := { body with source := bodyStep.1 }
  match bodyStep.2 with
  | .read capacity => relay.readFrom body.peer capacity (.readBody dest codec body capacity next)
  | .deliver (.error ec) => relay.endMessage dest codec next (some ec)
  | .deliver (.ok []) => (relay.emit (.exhausted dest)).endMessage dest codec next none
  | .deliver (.ok data) =>
    (relay.emit (.delivered dest data)).writeTo dest data (.writeBody dest codec body next)

/-- One round of `pump_body_to_stream`. -/
def pump (relay : RelaySession) (dest : Peer) (codec : Codec) (body : MessageBody)
    (next : WriteThen) : RelaySession :=
  relay.pumpStep dest codec body next (body.source.asyncReadSome pumpSize)

/-- The callback of the head's write. -/
def onHeadWritten (relay : RelaySession) (dest : Peer) (codec : Codec)
    (body : Option MessageBody) (next : WriteThen) (ec : Option ErrorCode) : RelaySession :=
  match ec, body with
  | none, some body => relay.pump dest codec body next
  | ec, _ => relay.endMessage dest codec next ec

/-- The callback of the write of a body piece. -/
def onPieceWritten (relay : RelaySession) (dest : Peer) (codec : Codec) (body : MessageBody)
    (next : WriteThen) (ec : Option ErrorCode) : RelaySession :=
  match ec with
  | none => relay.pump dest codec body next
  | some ec => relay.endMessage dest codec next (some ec)

/-! ## Completions -/

/-- The read handler of `pump_bytes`. -/
def onTunnelRead (relay : RelaySession) (src dst : Peer) (result : ReadResult) : RelaySession :=
  if relay.done then relay
  else
    match result with
    | .error _ | .ok [] => relay.teardown
    | .ok data => relay.kickIdleTimer.writeTo dst data (.tunnelWrite src dst)

/-- Its write handler. -/
def onTunnelWrite (relay : RelaySession) (src dst : Peer) (ec : Option ErrorCode) :
    RelaySession :=
  if relay.done then relay
  else
    match ec with
    | some _ => relay.teardown
    | none => relay.kickIdleTimer.pumpBytes src dst

/-- The read handler of `drain_client`. -/
def onDrainRead (relay : RelaySession) (result : ReadResult) : RelaySession :=
  if relay.done then relay
  else
    match result with
    | .error _ | .ok [] => relay.teardown
    | .ok _ => relay.kickIdleTimer.drainClient

/-- The read handler of `read_header_block`. -/
def onRequestRead (relay : RelaySession) (buf : Bytes) (result : ReadResult) : RelaySession :=
  match H1Codec.onBlockRead H1Codec.finishRequest buf result with
  | .more buf => relay.readFrom .client H1Codec.readSize (.readHead .client buf)
  | .failed _ => relay.teardown
  | .complete parsed => relay.onRequest parsed

/-- The read handler of `read_response_header`. -/
def onResponseRead (relay : RelaySession) (stream : TransportStream) (buf : Bytes)
    (result : ReadResult) : RelaySession :=
  match H1Codec.onBlockRead H1Codec.finishResponse buf result with
  | .more buf => relay.readFrom (.backend stream) H1Codec.readSize (.readHead (.backend stream) buf)
  | .failed _ => relay.onResponseError
  | .complete parsed => relay.onResponse stream parsed

/-- The callback of `async_take_headers` for a request. -/
def onRequestHeaders (relay : RelaySession) (result : Except ErrorCode HeaderList) :
    RelaySession :=
  match result with
  | .error _ => relay.teardown
  | .ok raw => relay.onRequest (H3Codec.asyncParseRequest raw)

/-- The same for a response. -/
def onResponseHeaders (relay : RelaySession) (stream : TransportStream)
    (result : Except ErrorCode HeaderList) : RelaySession :=
  match result with
  | .error _ => relay.onResponseError
  | .ok raw => relay.onResponse stream (H3Codec.asyncParseResponse raw)

/-- The callback of an outstanding operation; a completion of the wrong kind is ignored. -/
def handle (relay : RelaySession) (op : Op) (completion : Completion) : RelaySession :=
  match op, completion with
  | .readHead .client buf, .read result _ => relay.onRequestRead buf result
  | .readHead (.backend stream) buf, .read result _ => relay.onResponseRead stream buf result
  | .takeHeaders .client, .headers result => relay.onRequestHeaders result
  | .takeHeaders (.backend stream), .headers result => relay.onResponseHeaders stream result
  | .connect _ next, .connected result => relay.onConnected next result
  | .writeHead dest codec body next, .written ec => relay.onHeadWritten dest codec body next ec
  | .readBody dest codec body _ next, .read result examined =>
    relay.pumpStep dest codec body next (body.source.onRead examined result)
  | .writeBody dest codec body next, .written ec => relay.onPieceWritten dest codec body next ec
  | .finish dest next, .written ec => relay.messageDone dest next ec
  | .tunnelRead src dst, .read result _ => relay.onTunnelRead src dst result
  | .tunnelWrite src dst, .written ec => relay.onTunnelWrite src dst ec
  | .drainRead, .read result _ => relay.onDrainRead result
  | _, _ => relay

/-- The stream and the buffer size of an outstanding read. -/
def Op.reads : Op → Option (Peer × ℕ)
  | .readHead peer _ => some (peer, H1Codec.readSize)
  | .readBody _ _ body capacity _ => some (body.peer, capacity)
  | .tunnelRead src _ => some (src, tunnelSize)
  | .drainRead => some (.client, 4096)
  | _ => none

/-- The transport of a peer; the client's codec matches its transport. -/
def transport (relay : RelaySession) : Peer → TransportProtocol
  | .client => if relay.clientCodec = .h1 then .TCP else .QUIC
  | .backend stream => stream.protocol

/--
The completions an operation can have: a read fits its buffer and, over TCP, is never
an empty success; a connection is of the kind that was asked for.
-/
def Fits (relay : RelaySession) : Op → Completion → Bool
  | .connect (.group backendId) _, .connected (.ok (stream, endpoint, _)) =>
    stream.protocol = endpoint.protocol ∧ endpoint.backendId = backendId
  | .connect (.fresh target) _, .connected (.ok (stream, endpoint, fromPool)) =>
    stream.protocol = endpoint.protocol ∧ endpoint = target ∧ fromPool = false
  | .connect _ _, .connected (.error _) => true
  | .takeHeaders _, .headers _ => true
  | .writeHead .., .written _ | .writeBody .., .written _ | .finish .., .written _ => true
  | .tunnelWrite .., .written _ => true
  | op, .read result _ =>
    match op.reads, result with
    | some (peer, capacity), .ok data =>
      data.length ≤ capacity ∧ (relay.transport peer = .TCP → data ≠ [])
    | some _, .error _ => true
    | none, _ => false
  | _, _ => false

/-- The bytes that a completion brings, as an action. -/
def arrivals (op : Op) : Completion → List Action
  | .read (.ok data) _ =>
    match op.reads with
    | some (peer, _) => [.received peer data]
    | none => []
  | _ => []

/-- What can happen to a relay. -/
inductive Input where
  | complete (op : Op) (completion : Completion)
  /-- The idle timer's wait expires; its handler is queued. -/
  | timerExpires
  /-- The oldest queued handler runs. -/
  | timerHandler
  | gracefulClose
  deriving DecidableEq

/-- One callback, run to its end; `none` if the input is impossible in this state. -/
def react (relay : RelaySession) (input : Input) : Option RelaySession :=
  if relay.crashed then none
  else
    match input with
    | .complete op completion =>
      if op ∈ relay.pending ∧ relay.Fits op completion then
        some
          (handle { relay with pending := relay.pending.erase op, out := arrivals op completion }
            op completion)
      else none
    | .timerExpires =>
      match relay.idleTimer.armed with
      | none => none
      | some kick =>
        some
          { relay with
            idleTimer :=
              { relay.idleTimer with
                armed := none, expired := relay.idleTimer.expired ++ [kick] } }
    | .timerHandler =>
      match relay.idleTimer.expired with
      | [] => none
      | kick :: expired =>
        some
          (teardown
            (RelaySession.emit
              { relay with idleTimer := { relay.idleTimer with expired } }
              (.idleTimeout kick)))
    | .gracefulClose => some relay.gracefulClose

/-- A step of the machine, with what the relay did in it. -/
def step (relay : RelaySession) (input : Input) : Option (RelaySession × List Action) :=
  (react { relay with out := [] } input).map fun next => ({ next with out := [] }, next.out)

/-- The four kinds of steps, each with the relay as the callback leaves it. -/
inductive Stepped (relay : RelaySession) : Input → RelaySession → Prop where
  | completed (op : Op) (completion : Completion) (outstanding : op ∈ relay.pending)
      (fits : relay.Fits op completion = true) :
      Stepped relay (.complete op completion)
        (handle { relay with pending := relay.pending.erase op, out := arrivals op completion }
          op completion)
  | expired (kick : ℕ) (armed : relay.idleTimer.armed = some kick) :
      Stepped relay .timerExpires
        { relay with
          idleTimer :=
            { relay.idleTimer with
              armed := none, expired := relay.idleTimer.expired ++ [kick] }
          out := [] }
  | timedOut (kick : ℕ) (expired : List ℕ) (queued : relay.idleTimer.expired = kick :: expired) :
      Stepped relay .timerHandler
        (teardown
          { relay with
            idleTimer := { relay.idleTimer with expired }, out := [.idleTimeout kick] })
  | drained : Stepped relay .gracefulClose (gracefulClose { relay with out := [] })

theorem stepped_of_step {relay next : RelaySession} {input : Input} {actions : List Action}
    (stepped : relay.step input = some (next, actions)) :
    ∃ after, relay.crashed = false ∧ relay.Stepped input after ∧
      next = { after with out := [] } ∧ actions = after.out := by
  simp only [step, Option.map_eq_some_iff, Prod.mk.injEq] at stepped
  rcases stepped with ⟨after, reacted, rfl, rfl⟩
  refine ⟨after, ?_, ?_, rfl, rfl⟩
  · by_contra crashed
    simp [react, crashed] at reacted
  unfold react at reacted
  split at reacted
  · simp at reacted
  split at reacted
  · split at reacted
    · rename_i possible
      simp only [Option.some.injEq] at reacted
      subst reacted
      exact .completed _ _ possible.1 possible.2
    · simp at reacted
  · split at reacted
    · simp at reacted
    · rename_i kick armed
      simp only [Option.some.injEq] at reacted
      subst reacted
      exact .expired kick armed
  · split at reacted
    · simp at reacted
    · rename_i kick expired queued
      simp only [Option.some.injEq] at reacted
      subst reacted
      exact .timedOut kick expired queued
  · simp only [Option.some.injEq] at reacted
    subst reacted
    exact .drained

/-- A relay as constructed, once `start` has been called. -/
def start (clientCodec : Codec) (rules : List Router.Rule) (idleTimeout : ℕ) : RelaySession :=
  { requestPhase { clientCodec, rules, idleTimeout } with out := [] }

end RelaySession

end ReverseProxy
