import ReverseProxy.Relay.Control

/-!
# The transitions of a relay

`Handled` lists what the callback of an outstanding operation can do, each outcome as an
explicit update of the relay, and `Outcome` lists what a step can do.  Both are proved
once, and every invariant of the relay is shown by going through the lists.
-/

namespace ReverseProxy

open Text

namespace RelaySession

/-- What `goto_phase` adds to the trace. -/
def phaseChange (relay : RelaySession) (phase : Phase) : List Action :=
  if relay.phase = phase then [] else [.phase phase]

/-- The operation and the call that start to parse a message. -/
def parseOp (peer : Peer) : Codec → Op
  | .h1 => .readHead peer []
  | .h3 => .takeHeaders peer

/-- How a head is read. -/
def parseAction (peer : Peer) : Codec → Action
  | .h1 => .read peer H1Codec.readSize
  | .h3 => .takeHeaders peer

/-! ## The ends of exchanges -/

/-- The outcomes of `after_client_response`. -/
inductive AfterResponse (relay : RelaySession) : RelaySession → Prop where
  | nextRequest (idleTimer : IdleTimer) (running : relay.done = false)
      (keepAlive : relay.clientKeepAlive = true) (overTcp : relay.clientCodec = .h1)
      (serving : relay.draining = false) :
      AfterResponse relay
        { relay with
          phase := .request, idleTimer
          pending := relay.pending ++ [.readHead .client []]
          out := relay.out ++ relay.phaseChange .request ++ [.read .client H1Codec.readSize] }
  | shutDown (running : relay.done = false)
      (last : relay.draining = true ∨ relay.clientCodec = .h1 ∧ relay.clientKeepAlive = false) :
      AfterResponse relay
        { relay with
          draining := true
          pending := relay.pending ++ [.drainRead]
          out := relay.out ++ [.shutdown .client, .read .client 4096] }
  | drain (running : relay.done = false) (overQuic : relay.clientCodec = .h3)
      (serving : relay.draining = false) :
      AfterResponse relay
        { relay with
          pending := relay.pending ++ [.drainRead]
          out := relay.out ++ [.read .client 4096] }
  | finished (done : relay.done = true) : AfterResponse relay relay

/-- The outcomes of the callbacks that message writers are given. -/
inductive Resumes (relay : RelaySession) : WriteThen → Option ErrorCode → RelaySession → Prop where
  | awaitsResponse (retryAllowed : Bool) (idleTimer : IdleTimer) (stream : TransportStream)
      (isBackend : relay.backend = some stream) :
      Resumes relay (.requestWritten retryAllowed) none
        { relay with
          pendingHead := none, pendingBody := none, phase := .response, idleTimer
          pending := relay.pending ++ [parseOp (.backend stream) relay.backendCodec]
          out := relay.out ++ relay.phaseChange .response ++
            [parseAction (.backend stream) relay.backendCodec] }
  | losesBackend (retryAllowed : Bool) (idleTimer : IdleTimer) (gone : relay.backend = none) :
      Resumes relay (.requestWritten retryAllowed) none
        { relay with
          pendingHead := none, pendingBody := none, phase := .response, idleTimer
          crashed := true
          out := relay.out ++ relay.phaseChange .response ++ [.nullBackend] }
  | reconnects (ec : ErrorCode) (pooled : relay.backendFromPool = true)
      (bodiless : relay.pendingBody = none) :
      Resumes relay (.requestWritten true) (some ec)
        { relay with
          backend := none
          pending := relay.pending ++ [.connect (.fresh relay.backendEndpoint) .reconnected]
          out := relay.out ++ relay.closeActions ++ [.connect (.fresh relay.backendEndpoint)] }
  | writeFails (retryAllowed : Bool) (ec : ErrorCode)
      (final : ¬(retryAllowed = true ∧ relay.backendFromPool = true ∧ relay.pendingBody = none)) :
      Resumes relay (.requestWritten retryAllowed) (some ec)
        (writeError { relay with backend := none, out := relay.out ++ relay.closeActions }
          .badGateway (ascii "backend write error\n"))
  | exchanged (keepAlive : Bool) (ec : Option ErrorCode) {after : RelaySession}
      (continues : AfterResponse
        { relay with
          pendingHead := none, pendingBody := none, backend := none
          out := relay.out ++ relay.finishActions keepAlive } after) :
      Resumes relay (.responseWritten keepAlive) ec after
  | rejected (ec : Option ErrorCode) {after : RelaySession}
      (continues : AfterResponse relay after) : Resumes relay .errorWritten ec after
  | bridges (next : WriteThen) (stream : TransportStream) (fromPool : Bool)
      (isBackend : relay.backend = some stream) (opens : next = .upgraded ∨ next = .tunnelOpened) :
      Resumes relay next none
        { relay with
          phase := .bridge, backendFromPool := fromPool
          pending := relay.pending ++
            [.tunnelRead .client (.backend stream), .tunnelRead (.backend stream) .client]
          out := relay.out ++ relay.phaseChange .bridge ++
            [.read .client tunnelSize, .read (.backend stream) tunnelSize] }
  | bridgesNothing (next : WriteThen) (fromPool : Bool) (gone : relay.backend = none)
      (opens : next = .upgraded ∨ next = .tunnelOpened) :
      Resumes relay next none
        { relay with
          phase := .bridge, backendFromPool := fromPool, crashed := true
          out := relay.out ++ relay.phaseChange .bridge ++
            [.read .client tunnelSize, .nullBackend] }
  | bridgeFails (next : WriteThen) (ec : ErrorCode)
      (opens : next = .upgraded ∨ next = .tunnelOpened) :
      Resumes relay next (some ec) relay.teardown

/-! ## Parsed heads -/

/-- How far a completion brings the parse of a request. -/
def requestProgress : Op → Completion → Option (H1Codec.Progress ParsedRequest)
  | .readHead .client buf, .read result _ =>
    some (H1Codec.onBlockRead H1Codec.finishRequest buf result)
  | .takeHeaders .client, .headers (.ok raw) => some (.complete (H3Codec.asyncParseRequest raw))
  | .takeHeaders .client, .headers (.error ec) => some (.failed ec)
  | _, _ => none

/-- How far a completion brings the parse of a response from a stream. -/
def responseProgress (stream : TransportStream) :
    Op → Completion → Option (H1Codec.Progress ParsedResponse)
  | .readHead (.backend stream') buf, .read result _ =>
    if stream' = stream then some (H1Codec.onBlockRead H1Codec.finishResponse buf result)
    else none
  | .takeHeaders (.backend stream'), .headers (.ok raw) =>
    if stream' = stream then some (.complete (H3Codec.asyncParseResponse raw)) else none
  | .takeHeaders (.backend stream'), .headers (.error ec) =>
    if stream' = stream then some (.failed ec) else none
  | _, _ => none

/-- An operation fails. -/
def Completion.fails : Completion → Bool
  | .read (.error _) _ | .written (some _) | .connected (.error _) => true
  | _ => false

/-- The bytes that a header read has returned so far. -/
def headerText : Op → Completion → Bytes
  | .readHead _ buf, .read (.ok data) _ => buf ++ data
  | _, _ => []

/-- A relay that has parsed a request. -/
def served (relay : RelaySession) (parsed : ParsedRequest) (idleTimer : IdleTimer) :
    RelaySession :=
  { relay with
    phase := .forward
    stats := { relay.stats with requests := relay.stats.requests + 1 }
    clientKeepAlive := parsed.keepAlive
    requestMethod := parsed.head.method
    clientVersion := parsed.head.version
    requestIsUpgrade := isUpgradeRequest parsed.head
    idleTimer
    out := relay.out ++ relay.phaseChange .forward ++ [.request parsed] }

/-- The connection that a parsed request leads to, if any. -/
def connectionFor (rules : List Router.Rule) (parsed : ParsedRequest) :
    Option (ConnectTarget × ConnectThen) :=
  match dispatch rules parsed.head with
  | .tunnel target => some (.fresh target, .tunnel)
  | .direct target head => some (.fresh target, .useBackend head parsed.body)
  | .routed backendId head => some (.group backendId, .useBackend head parsed.body)
  | .reject _ _ => none

/-- A relay that has parsed a response. -/
def answered (relay : RelaySession) (stream : TransportStream) (parsed : ParsedResponse)
    (idleTimer : IdleTimer) : RelaySession :=
  { relay with
    stats := relay.stats.countResponse parsed.head.statusCode
    idleTimer
    out := relay.out ++ [.response stream parsed] }

/-! ## Messages under way -/

/-- The body source of a message takes a step. -/
inductive Advances : Op → Completion → Peer → Codec → MessageBody → WriteThen →
    BodySource × BodyStep → Prop where
  | headWritten (dest : Peer) (codec : Codec) (body : MessageBody) (next : WriteThen) :
      Advances (.writeHead dest codec (some body) next) (.written none) dest codec body next
        (body.source.asyncReadSome pumpSize)
  | pieceWritten (dest : Peer) (codec : Codec) (body : MessageBody) (next : WriteThen) :
      Advances (.writeBody dest codec body next) (.written none) dest codec body next
        (body.source.asyncReadSome pumpSize)
  | sourceRead (dest : Peer) (codec : Codec) (body : MessageBody) (capacity : ℕ)
      (next : WriteThen) (result : ReadResult) (examined : UInt8) :
      Advances (.readBody dest codec body capacity next) (.read result examined) dest codec body
        next (body.source.onRead examined result)

/-- A message ends with an error code; the last argument is what the trace shows of it. -/
inductive Ends : Op → Completion → Peer → Codec → WriteThen → Option ErrorCode →
    List Action → Prop where
  | headFails (dest : Peer) (codec : Codec) (body : Option MessageBody) (next : WriteThen)
      (ec : ErrorCode) :
      Ends (.writeHead dest codec body next) (.written (some ec)) dest codec next (some ec) []
  | headIsAll (dest : Peer) (codec : Codec) (next : WriteThen) :
      Ends (.writeHead dest codec none next) (.written none) dest codec next none []
  | pieceFails (dest : Peer) (codec : Codec) (body : MessageBody) (next : WriteThen)
      (ec : ErrorCode) :
      Ends (.writeBody dest codec body next) (.written (some ec)) dest codec next (some ec) []
  | bodyFails {op : Op} {completion : Completion} {dest : Peer} {codec : Codec}
      {body : MessageBody} {next : WriteThen} {bodyStep : BodySource × BodyStep} {ec : ErrorCode}
      (advances : Advances op completion dest codec body next bodyStep)
      (fails : bodyStep.2 = .deliver (.error ec)) :
      Ends op completion dest codec next (some ec) []
  | bodyEnds {op : Op} {completion : Completion} {dest : Peer} {codec : Codec}
      {body : MessageBody} {next : WriteThen} {bodyStep : BodySource × BodyStep}
      (advances : Advances op completion dest codec body next bodyStep)
      (exhausted : bodyStep.2 = .deliver (.ok [])) :
      Ends op completion dest codec next none [.exhausted dest]

/-! ## All outcomes -/

/-- What the callback of an outstanding operation can do. -/
inductive Handled (relay : RelaySession) : Op → Completion → RelaySession → Prop where
  | requestMore {op : Op} {completion : Completion} {buf : Bytes}
      (progress : requestProgress op completion = some (.more buf)) :
      Handled relay op completion
        { relay with
          pending := relay.pending ++ [.readHead .client buf]
          out := relay.out ++ [.read .client H1Codec.readSize] }
  | requestFails {op : Op} {completion : Completion} (ec : ErrorCode)
      (progress : requestProgress op completion = some (.failed ec)) :
      Handled relay op completion relay.teardown
  | requestForwarded {op : Op} {completion : Completion} {parsed : ParsedRequest}
      (progress : requestProgress op completion = some (.complete parsed))
      (idleTimer : IdleTimer) {target : ConnectTarget} {next : ConnectThen}
      (connects : connectionFor relay.rules parsed = some (target, next)) :
      Handled relay op completion ((relay.served parsed idleTimer).connect target next)
  | requestRejected {op : Op} {completion : Completion} {parsed : ParsedRequest}
      (progress : requestProgress op completion = some (.complete parsed))
      (idleTimer : IdleTimer) {status : HttpStatus} {message : Bytes}
      (rejects : dispatch relay.rules parsed.head = .reject status message) :
      Handled relay op completion ((relay.served parsed idleTimer).writeError status message)
  | connectFails (target : ConnectTarget) (next : ConnectThen) (ec : ErrorCode)
      (message : Bytes) :
      Handled relay (.connect target next) (.connected (.error ec))
        (relay.writeError .badGateway message)
  | requestSent (target : ConnectTarget) (head : HttpRequestHead) (body : Option BodySource)
      (stream : TransportStream) (endpoint : BackendEndpoint) (fromPool : Bool)
      (idleTimer : IdleTimer) :
      Handled relay (.connect target (.useBackend head body))
        (.connected (.ok (stream, endpoint, fromPool)))
        { relay with
          backend := some stream, backendEndpoint := endpoint
          backendCodec := codecFor endpoint, backendFromPool := fromPool
          pendingHead := some head, pendingBody := body, idleTimer
          stats :=
            { relay.stats with
              backendConnects := relay.stats.backendConnects + if fromPool then 0 else 1 }
          pending := relay.pending ++
            [.writeHead (.backend stream) (codecFor endpoint)
              (body.map fun source => ⟨.client, source⟩) (.requestWritten true)]
          out := relay.out ++
            [.requestTo stream head,
              headAction (.backend stream) (codecFor endpoint) (H1Codec.requestBytes head)
                (H3Codec.requestHeaderList head)] }
  | tunnelAccepted (target : ConnectTarget) (stream : TransportStream)
      (endpoint : BackendEndpoint) (fromPool : Bool) :
      Handled relay (.connect target .tunnel) (.connected (.ok (stream, endpoint, fromPool)))
        (startTunnel { relay with backend := some stream, backendEndpoint := endpoint })
  | requestResent (target : ConnectTarget) (stream : TransportStream)
      (endpoint : BackendEndpoint) (fromPool : Bool) (head : HttpRequestHead)
      (kept : relay.pendingHead = some head) :
      Handled relay (.connect target .reconnected)
        (.connected (.ok (stream, endpoint, fromPool)))
        { relay with
          backend := some stream, backendEndpoint := endpoint, backendFromPool := false
          stats := { relay.stats with backendConnects := relay.stats.backendConnects + 1 }
          pending := relay.pending ++
            [.writeHead (.backend stream) relay.backendCodec
              (relay.pendingBody.map fun source => ⟨.client, source⟩) (.requestWritten false)]
          out := relay.out ++
            [.requestTo stream head,
              headAction (.backend stream) relay.backendCodec (H1Codec.requestBytes head)
                (H3Codec.requestHeaderList head)] }
  | bodyAsks {op : Op} {completion : Completion} {dest : Peer} {codec : Codec}
      {body : MessageBody} {next : WriteThen} {bodyStep : BodySource × BodyStep} {capacity : ℕ}
      (advances : Advances op completion dest codec body next bodyStep)
      (asks : bodyStep.2 = .read capacity) :
      Handled relay op completion
        { relay with
          pending := relay.pending ++
            [.readBody dest codec { body with source := bodyStep.1 } capacity next]
          out := relay.out ++ [.read body.peer capacity] }
  | pieceSent {op : Op} {completion : Completion} {dest : Peer} {codec : Codec}
      {body : MessageBody} {next : WriteThen} {bodyStep : BodySource × BodyStep} {data : Bytes}
      (advances : Advances op completion dest codec body next bodyStep)
      (delivers : bodyStep.2 = .deliver (.ok data)) (nonempty : data ≠ []) :
      Handled relay op completion
        { relay with
          pending := relay.pending ++
            [.writeBody dest codec { body with source := bodyStep.1 } next]
          out := relay.out ++ [.delivered dest data, .write dest data] }
  | finishes {op : Op} {completion : Completion} {dest : Peer} {next : WriteThen}
      {ec : Option ErrorCode} {shown : List Action}
      (ends : Ends op completion dest .h3 next ec shown) :
      Handled relay op completion
        { relay with
          pending := relay.pending ++ [.finish dest next]
          out := relay.out ++ shown ++ [.shutdown dest] }
  | messageEnds {op : Op} {completion : Completion} {dest : Peer} {next : WriteThen}
      {ec : Option ErrorCode} {shown : List Action} {after : RelaySession}
      (ends : Ends op completion dest .h1 next ec shown)
      (resumes : Resumes { relay with out := relay.out ++ shown ++ [.messageDone dest ec] } next
        ec after) :
      Handled relay op completion after
  | finished (dest : Peer) (next : WriteThen) (ec : Option ErrorCode) {after : RelaySession}
      (resumes : Resumes { relay with out := relay.out ++ [.messageDone dest ec] } next ec after) :
      Handled relay (.finish dest next) (.written ec) after
  | responseMore {op : Op} {completion : Completion} {stream : TransportStream} {buf : Bytes}
      (progress : responseProgress stream op completion = some (.more buf)) :
      Handled relay op completion
        { relay with
          pending := relay.pending ++ [.readHead (.backend stream) buf]
          out := relay.out ++ [.read (.backend stream) H1Codec.readSize] }
  | responseFails {op : Op} {completion : Completion} {stream : TransportStream} (ec : ErrorCode)
      (progress : responseProgress stream op completion = some (.failed ec)) :
      Handled relay op completion
        (writeError { relay with backend := none, out := relay.out ++ relay.closeActions }
          .badGateway (ascii "backend response error\n"))
  | upgradeAnswered {op : Op} {completion : Completion} {stream : TransportStream}
      {parsed : ParsedResponse}
      (progress : responseProgress stream op completion = some (.complete parsed))
      (idleTimer : IdleTimer)
      (upgrades : relay.requestIsUpgrade = true ∧ parsed.head.statusCode = 101) :
      Handled relay op completion
        ((relay.answered stream parsed idleTimer).writeResponse (relay.clientHead parsed.head) none
          .upgraded)
  | responseAnswered {op : Op} {completion : Completion} {stream : TransportStream}
      {parsed : ParsedResponse}
      (progress : responseProgress stream op completion = some (.complete parsed))
      (idleTimer : IdleTimer)
      (plain : ¬(relay.requestIsUpgrade = true ∧ parsed.head.statusCode = 101)) :
      Handled relay op completion
        ((relay.answered stream parsed idleTimer).writeResponse (relay.clientHead parsed.head)
          (relay.clientBody stream parsed) (.responseWritten parsed.keepAlive))
  | drainReads (data : Bytes) (examined : UInt8) (idleTimer : IdleTimer)
      (running : relay.done = false) :
      Handled relay .drainRead (.read (.ok data) examined)
        { relay with
          idleTimer, pending := relay.pending ++ [.drainRead]
          out := relay.out ++ [.read .client 4096] }
  | drainEnds (completion : Completion) : Handled relay .drainRead completion relay.teardown

/-- What the callback of one direction of a bridge can do. -/
inductive Carried (relay : RelaySession) (src dst : Peer) : Op → Completion → RelaySession → Prop where
  | forwards (data : Bytes) (examined : UInt8) (nonempty : data ≠ []) (idleTimer : IdleTimer)
      (running : relay.done = false) :
      Carried relay src dst (.tunnelRead src dst) (.read (.ok data) examined)
        { relay with
          idleTimer, pending := relay.pending ++ [.tunnelWrite src dst]
          out := relay.out ++ [.write dst data] }
  | reads (idleTimer : IdleTimer) (running : relay.done = false) :
      Carried relay src dst (.tunnelWrite src dst) (.written none)
        { relay with
          idleTimer, pending := relay.pending ++ [.tunnelRead src dst]
          out := relay.out ++ [.read src tunnelSize] }
  | ends (op : Op) (completion : Completion) : Carried relay src dst op completion relay.teardown

section Outcomes

variable {relay : RelaySession}

theorem requestPhase_eq (relay : RelaySession) :
    ∃ idleTimer, relay.requestPhase =
      { relay with
        phase := .request, idleTimer
        pending := relay.pending ++ [parseOp .client relay.clientCodec]
        out := relay.out ++ relay.phaseChange .request ++
          [parseAction .client relay.clientCodec] } := by
  rcases (relay.gotoPhase .request).kickIdleTimer_eq with ⟨idleTimer, kicked⟩
  refine ⟨idleTimer, ?_⟩
  rw [requestPhase, kicked, gotoPhase_eq, asyncParseRequest]
  cases relay.clientCodec <;> rfl

theorem afterResponse_afterClientResponse (relay : RelaySession) :
    relay.AfterResponse relay.afterClientResponse := by
  cases running : relay.done with
  | true =>
    have stays : relay.afterClientResponse = relay := by
      simp [afterClientResponse, gracefullyCloseClient, drainClient, running]
    rw [stays]
    exact .finished running
  | false =>
    rw [afterClientResponse, gracefullyCloseClient_eq _ running, drainClient_eq _ running]
    split
    · rename_i draining
      exact .shutDown running (.inl draining)
    rename_i serving
    simp only [Bool.not_eq_true] at serving
    split
    · rename_i keeps
      rcases relay.requestPhase_eq with ⟨idleTimer, entered⟩
      have next := AfterResponse.nextRequest idleTimer running keeps.1 keeps.2.2 serving
      rw [entered]
      simp only [keeps.2.2, parseOp, parseAction] at next ⊢
      exact next
    split
    · rename_i leaves overTcp
      have closes : relay.clientKeepAlive = false := by simpa [overTcp, running] using leaves
      exact .shutDown running (.inr ⟨overTcp, closes⟩)
    · rename_i leaves notTcp
      have overQuic : relay.clientCodec = .h3 := by
        cases codec : relay.clientCodec
        · exact absurd codec notTcp
        · rfl
      exact .drain running overQuic serving

theorem responsePhase_eq (relay : RelaySession) {stream : TransportStream}
    (isBackend : relay.backend = some stream) :
    ∃ idleTimer, relay.responsePhase =
      { relay with
        phase := .response, idleTimer
        pending := relay.pending ++ [parseOp (.backend stream) relay.backendCodec]
        out := relay.out ++ relay.phaseChange .response ++
          [parseAction (.backend stream) relay.backendCodec] } := by
  rcases (relay.gotoPhase .response).kickIdleTimer_eq with ⟨idleTimer, kicked⟩
  refine ⟨idleTimer, ?_⟩
  rw [responsePhase, kicked, gotoPhase_eq, asyncParseResponse]
  simp only [isBackend]
  cases relay.backendCodec <;> rfl

theorem bridgeMode_eq (relay : RelaySession) {stream : TransportStream}
    (isBackend : relay.backend = some stream) :
    relay.bridgeMode =
      { relay with
        phase := .bridge
        pending := relay.pending ++
          [.tunnelRead .client (.backend stream), .tunnelRead (.backend stream) .client]
        out := relay.out ++ relay.phaseChange .bridge ++
          [.read .client tunnelSize, .read (.backend stream) tunnelSize] } := by
  rw [bridgeMode, gotoPhase_eq]
  simp only [isBackend]
  simp [pumpBytes, readFrom, emit, await, phaseChange]

theorem responsePhase_eq_crash (relay : RelaySession) (gone : relay.backend = none) :
    ∃ idleTimer, relay.responsePhase =
      { relay with
        phase := .response, idleTimer, crashed := true
        out := relay.out ++ relay.phaseChange .response ++ [.nullBackend] } := by
  rcases (relay.gotoPhase .response).kickIdleTimer_eq with ⟨idleTimer, kicked⟩
  refine ⟨idleTimer, ?_⟩
  rw [responsePhase, kicked, gotoPhase_eq, asyncParseResponse]
  simp only [gone]
  rfl

theorem bridgeMode_eq_crash (relay : RelaySession) (gone : relay.backend = none) :
    relay.bridgeMode =
      { relay with
        phase := .bridge, crashed := true
        out := relay.out ++ relay.phaseChange .bridge ++
          [.read .client tunnelSize, .nullBackend] } := by
  rw [bridgeMode, gotoPhase_eq]
  simp only [gone]
  simp [crash, emit, phaseChange]

theorem resumes_resume (relay : RelaySession) (next : WriteThen) (ec : Option ErrorCode) :
    relay.Resumes next ec (relay.resume next ec) := by
  cases next with
  | requestWritten retryAllowed =>
    cases ec with
    | none =>
      rcases kickIdleTimer_eq { relay with pendingHead := none, pendingBody := none } with
        ⟨kickTimer, kicked⟩
      rw [resume, kicked]
      by_cases gone : relay.backend = none
      · rcases responsePhase_eq_crash
          { relay with pendingHead := none, pendingBody := none, idleTimer := kickTimer }
          gone with ⟨idleTimer, entered⟩
        rw [entered]
        exact .losesBackend retryAllowed idleTimer gone
      · rcases Option.ne_none_iff_exists'.mp gone with ⟨stream, isBackend⟩
        rcases responsePhase_eq
          { relay with pendingHead := none, pendingBody := none, idleTimer := kickTimer }
          isBackend with ⟨idleTimer, entered⟩
        rw [entered]
        exact .awaitsResponse retryAllowed idleTimer stream isBackend
    | some ec =>
      rw [resume, reconnectBackendFresh, closeBackend_eq]
      split
      · rename_i retries
        rcases retries with ⟨rfl, pooled, bodiless⟩
        exact .reconnects ec pooled bodiless
      · rename_i final
        exact .writeFails retryAllowed ec final
  | responseWritten backendKeepAlive =>
    apply Resumes.exchanged backendKeepAlive ec
    rw [resume, finishBackend_eq]
    exact afterResponse_afterClientResponse _
  | upgraded =>
    cases ec with
    | none =>
      rw [resume]
      by_cases gone : relay.backend = none
      · rw [bridgeMode_eq_crash { relay with backendFromPool := false } gone]
        exact .bridgesNothing .upgraded false gone (.inl rfl)
      · rcases Option.ne_none_iff_exists'.mp gone with ⟨stream, isBackend⟩
        rw [bridgeMode_eq { relay with backendFromPool := false } isBackend]
        exact .bridges .upgraded stream false isBackend (.inl rfl)
    | some ec => exact .bridgeFails .upgraded ec (.inl rfl)
  | tunnelOpened =>
    cases ec with
    | none =>
      rw [resume]
      by_cases gone : relay.backend = none
      · rw [bridgeMode_eq_crash relay gone]
        exact .bridgesNothing .tunnelOpened relay.backendFromPool gone (.inr rfl)
      · rcases Option.ne_none_iff_exists'.mp gone with ⟨stream, isBackend⟩
        rw [bridgeMode_eq relay isBackend]
        exact .bridges .tunnelOpened stream relay.backendFromPool isBackend (.inr rfl)
    | some ec => exact .bridgeFails .tunnelOpened ec (.inr rfl)
  | errorWritten => exact .rejected ec (afterResponse_afterClientResponse relay)

variable {completion : Completion}

theorem handled_endMessage {op : Op} {dest : Peer} {codec : Codec} {next : WriteThen}
    {ec : Option ErrorCode} {shown : List Action}
    (ends : Ends op completion dest codec next ec shown) :
    relay.Handled op completion
      (endMessage { relay with out := relay.out ++ shown } dest codec next ec) := by
  cases codec with
  | h1 => exact .messageEnds ends (resumes_resume _ next ec)
  | h3 => exact .finishes ends

theorem handled_pumpStep {op : Op} {dest : Peer} {codec : Codec} {body : MessageBody}
    {next : WriteThen} {bodyStep : BodySource × BodyStep}
    (advances : Advances op completion dest codec body next bodyStep) :
    relay.Handled op completion (relay.pumpStep dest codec body next bodyStep) := by
  unfold pumpStep
  dsimp only
  split
  · rename_i capacity asks
    exact .bodyAsks advances asks
  · rename_i ec fails
    have ended : relay.Handled _ _ _ := handled_endMessage (.bodyFails advances fails)
    rwa [List.append_nil] at ended
  · rename_i exhausted
    exact handled_endMessage (.bodyEnds advances exhausted)
  · rename_i data nonempty delivers
    have sent : relay.Handled _ _ _ := .pieceSent advances delivers nonempty
    simpa [writeTo, emit, await] using sent

theorem handled_onHeadWritten (dest : Peer) (codec : Codec) (body : Option MessageBody)
    (next : WriteThen) (ec : Option ErrorCode) :
    relay.Handled (.writeHead dest codec body next) (.written ec)
      (relay.onHeadWritten dest codec body next ec) := by
  cases ec with
  | some ec =>
    have ended : relay.Handled _ _ _ :=
      handled_endMessage (.headFails dest codec body next ec)
    rwa [List.append_nil] at ended
  | none =>
    cases body with
    | some body => exact handled_pumpStep (.headWritten dest codec body next)
    | none =>
      have ended : relay.Handled _ _ _ := handled_endMessage (.headIsAll dest codec next)
      rwa [List.append_nil] at ended

theorem handled_onPieceWritten (dest : Peer) (codec : Codec) (body : MessageBody)
    (next : WriteThen) (ec : Option ErrorCode) :
    relay.Handled (.writeBody dest codec body next) (.written ec)
      (relay.onPieceWritten dest codec body next ec) := by
  cases ec with
  | none => exact handled_pumpStep (.pieceWritten dest codec body next)
  | some ec =>
    have ended : relay.Handled _ _ _ :=
      handled_endMessage (.pieceFails dest codec body next ec)
    rwa [List.append_nil] at ended

theorem handled_onRequest {op : Op} {parsed : ParsedRequest}
    (progress : requestProgress op completion = some (.complete parsed)) :
    relay.Handled op completion (relay.onRequest parsed) := by
  simp only [onRequest]
  generalize isServed : RelaySession.emit (RelaySession.kickIdleTimer _) _ = forwarding
  have facts : ∃ idleTimer, forwarding = relay.served parsed idleTimer := by
    rcases kickIdleTimer_eq _ with ⟨idleTimer, kicked⟩
    refine ⟨idleTimer, ?_⟩
    rw [← isServed, kicked, gotoPhase_eq]
    rfl
  rcases facts with ⟨idleTimer, rfl⟩
  have sameRules : (relay.served parsed idleTimer).rules = relay.rules := rfl
  rw [sameRules]
  split
  · rename_i target dispatched
    exact .requestForwarded progress idleTimer (by simp [connectionFor, dispatched])
  · rename_i target head dispatched
    exact .requestForwarded progress idleTimer (by simp [connectionFor, dispatched])
  · rename_i backendId head dispatched
    exact .requestForwarded progress idleTimer (by simp [connectionFor, dispatched])
  · rename_i status message dispatched
    exact .requestRejected progress idleTimer dispatched

theorem handled_onResponse {op : Op} {stream : TransportStream} {parsed : ParsedResponse}
    (progress : responseProgress stream op completion = some (.complete parsed)) :
    relay.Handled op completion (relay.onResponse stream parsed) := by
  rcases kickIdleTimer_eq
    { relay with stats := relay.stats.countResponse parsed.head.statusCode } with
    ⟨idleTimer, kicked⟩
  simp only [onResponse, kicked]
  split
  · rename_i upgrades
    exact .upgradeAnswered progress idleTimer upgrades
  · rename_i plain
    exact .responseAnswered progress idleTimer plain

theorem handled_onConnected (target : ConnectTarget) (next : ConnectThen)
    (result : Except ErrorCode (TransportStream × BackendEndpoint × Bool))
    (retried : next = .reconnected → relay.pendingHead.isSome) :
    relay.Handled (.connect target next) (.connected result) (relay.onConnected next result) := by
  cases result with
  | error ec => cases next <;> exact .connectFails _ _ ec _
  | ok connection =>
    rcases connection with ⟨stream, endpoint, fromPool⟩
    cases next with
    | useBackend head body =>
      rcases kickIdleTimer_eq
        { relay with backend := some stream, backendEndpoint := endpoint } with
        ⟨idleTimer, kicked⟩
      have sent : relay.Handled _ _ _ :=
        .requestSent target head body stream endpoint fromPool idleTimer
      simpa [onConnected, useBackend, kicked, sendBackendRequest, writeMessage_eq, emit]
        using sent
    | tunnel => exact .tunnelAccepted target stream endpoint fromPool
    | reconnected =>
      rcases Option.isSome_iff_exists.mp (retried rfl) with ⟨head, kept⟩
      have sent : relay.Handled _ _ _ :=
        .requestResent target stream endpoint fromPool head kept
      simpa [onConnected, kept, sendBackendRequest, writeMessage_eq, emit] using sent

theorem handled_handle {op : Op} (awaits : relay.Awaits op)
    (fits : relay.Fits op completion = true) :
    relay.Handled op completion (relay.handle op completion) := by
  cases op with
  | readHead peer buf =>
    cases completion <;> try simp [Fits] at fits
    rename_i result examined
    cases peer with
    | client =>
      simp only [handle, onRequestRead]
      split
      · rename_i buf' progress
        exact .requestMore (by simp [requestProgress, progress])
      · rename_i ec progress
        exact .requestFails ec (by simp [requestProgress, progress])
      · rename_i parsed progress
        exact handled_onRequest (by simp [requestProgress, progress])
    | backend stream =>
      simp only [handle, onResponseRead]
      split
      · rename_i buf' progress
        exact .responseMore (by simp [responseProgress, progress])
      · rename_i ec progress
        rw [onResponseError, closeBackend_eq]
        exact .responseFails ec (by simp [responseProgress, progress]; rfl)
      · rename_i parsed progress
        exact handled_onResponse (by simp [responseProgress, progress])
  | takeHeaders peer =>
    cases completion <;> try simp [Fits, Op.reads] at fits
    rename_i result
    cases peer with
    | client =>
      cases result with
      | error ec => exact .requestFails ec rfl
      | ok raw => exact handled_onRequest rfl
    | backend stream =>
      cases result with
      | error ec =>
        simp only [handle, onResponseHeaders]
        rw [onResponseError, closeBackend_eq]
        exact .responseFails ec (by simp [responseProgress]; rfl)
      | ok raw => exact handled_onResponse (by simp [responseProgress])
  | connect target next =>
    cases completion <;> try simp [Fits, Op.reads] at fits
    exact handled_onConnected target next _ fun retried => (awaits.2.2 retried).1
  | writeHead dest codec body next =>
    cases completion <;> try simp [Fits, Op.reads] at fits
    exact handled_onHeadWritten dest codec body next _
  | readBody dest codec body capacity next =>
    cases completion <;> try simp [Fits] at fits
    exact handled_pumpStep (.sourceRead dest codec body capacity next _ _)
  | writeBody dest codec body next =>
    cases completion <;> try simp [Fits, Op.reads] at fits
    exact handled_onPieceWritten dest codec body next _
  | finish dest next =>
    cases completion <;> try simp [Fits, Op.reads] at fits
    exact .finished dest next _ (resumes_resume _ next _)
  | tunnelRead src dst => exact awaits.elim
  | tunnelWrite src dst => exact awaits.elim
  | drainRead =>
    cases completion <;> try simp [Fits] at fits
    rename_i result examined
    simp only [handle]
    unfold onDrainRead
    split
    · rename_i done
      have stays : relay.Handled .drainRead (.read result examined) relay.teardown :=
        .drainEnds _
      rwa [teardown_of_done _ done] at stays
    · rename_i notDone
      have running : relay.done = false := by simpa using notDone
      split
      · exact .drainEnds _
      · exact .drainEnds _
      · rename_i data nonempty
        rcases relay.kickIdleTimer_eq with ⟨idleTimer, kicked⟩
        rw [kicked, drainClient_eq { relay with idleTimer } running]
        exact .drainReads data examined idleTimer running

theorem carried_handle {op : Op} {src dst : Peer} (carries : op.Carries src dst)
    (fits : relay.Fits op completion = true) :
    relay.Carried src dst op completion (relay.handle op completion) := by
  rcases relay.kickIdleTimer_eq with ⟨idleTimer, kicked⟩
  have stays : relay.done = true → relay.Carried src dst op completion relay := by
    intro done
    have ended : relay.Carried src dst op completion relay.teardown := .ends _ _
    rwa [teardown_of_done _ done] at ended
  rcases carries with rfl | rfl
  · cases completion <;> try simp [Fits] at fits
    rename_i result examined
    simp only [handle]
    unfold onTunnelRead
    split
    · rename_i done
      exact stays done
    · rename_i notDone
      split
      · exact .ends _ _
      · exact .ends _ _
      · rename_i data nonempty
        rw [kicked]
        exact .forwards data examined nonempty idleTimer (by simpa using notDone)
  · cases completion <;> try simp [Fits, Op.reads] at fits
    simp only [handle]
    unfold onTunnelWrite
    split
    · rename_i done
      exact stays done
    · rename_i notDone
      split
      · exact .ends _ _
      · rw [kicked]
        exact .reads idleTimer (by simpa using notDone)

end Outcomes

end RelaySession

end ReverseProxy
