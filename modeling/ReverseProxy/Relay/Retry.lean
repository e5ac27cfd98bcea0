import ReverseProxy.Relay.Closed
import ReverseProxy.Relay.Exchanges

/-!
# Trying a request again

A pooled backend connection may have been closed by the backend while it was idle.  If the
write of a request to it fails, `send_backend_request` (`proxy/relay_session.cpp`) connects
afresh and writes the head once more, but only if the request has no body source, which
could not be read again.  The three flags that decide this are set in different callbacks and
outlive the exchange, so that what they say about it is an invariant of the run: `Stage` ties
them to what the log of the exchange shows.
-/

namespace ReverseProxy

open Machine Text

namespace RelaySession

/-! ## What an exchange shows -/

/-- The actions that tell how a request is sent. -/
inductive Note where
  | request (parsed : ParsedRequest)
  | head (stream : TransportStream) (head : HttpRequestHead)
  | body (stream : TransportStream)
  /-- The writer of a request reports an error. -/
  | writeFailed (stream : TransportStream)
  | connect (target : ConnectTarget)
  deriving DecidableEq

/-- What an action tells of a retry. -/
def Action.note : Action → Option Note
  | .request parsed => some (.request parsed)
  | .requestTo stream head => some (.head stream head)
  | .delivered (.backend stream) _ => some (.body stream)
  | .messageDone (.backend stream) (some _) => some (.writeFailed stream)
  | .connect target => some (.connect target)
  | _ => none

/-- The notes of some actions. -/
def notes (actions : List Action) : List Note := actions.filterMap Action.note

/-- The turns since the last request was parsed, with the turn that parsed it. -/
def exchange (log : List Transition) : List Transition :=
  log.foldl (fun turns turn => if requestsIn turn.actions = 0 then turns ++ [turn] else [turn]) []

/-- The connection that a completion brings: what was asked for, and what the pool answers. -/
def Input.connection : Input → Option (ConnectTarget × TransportStream × BackendEndpoint × Bool)
  | .complete (.connect target _) (.connected (.ok result)) => some (target, result)
  | _ => none

/-- A connect fails. -/
def Input.connectFails : Input → Bool
  | .complete (.connect _ _) (.connected (.error _)) => true
  | _ => false

/-- A request head written to a backend stream, and the connection that the step brought. -/
structure Attempt where
  stream : TransportStream
  head : HttpRequestHead
  connection : Option (ConnectTarget × TransportStream × BackendEndpoint × Bool)

/-- The attempt that a note tells of. -/
def Note.attempt (input : Input) : Note → Option Attempt
  | .head stream sent => some { stream, head := sent, connection := input.connection }
  | _ => none

/-- The stream that the body is written to. -/
def Note.bodyStream : Note → Option TransportStream
  | .body stream => some stream
  | _ => none

/-- The stream of a failed write. -/
def Note.failedStream : Note → Option TransportStream
  | .writeFailed stream => some stream
  | _ => none

/-- The request that was parsed. -/
def Note.parsedRequest : Note → Option ParsedRequest
  | .request parsed => some parsed
  | _ => none

/-- The request of an exchange. -/
def requested (turns : List Transition) : List ParsedRequest :=
  turns.flatMap fun turn => (notes turn.actions).filterMap Note.parsedRequest

/-- The attempts of an exchange. -/
def attempts (turns : List Transition) : List Attempt :=
  turns.flatMap fun turn => (notes turn.actions).filterMap (Note.attempt turn.input)

/-- The streams that bytes of the request's body have been sent to. -/
def bodyStreams (turns : List Transition) : List TransportStream :=
  turns.flatMap fun turn => (notes turn.actions).filterMap Note.bodyStream

/-- The streams on which the write of the request has failed. -/
def failedStreams (turns : List Transition) : List TransportStream :=
  turns.flatMap fun turn => (notes turn.actions).filterMap Note.failedStream

/-- A connect or write failure is reported to the relay, and it does not connect again. -/
def Refuses (turn : Transition) : Prop :=
  (turn.input.connectFails = true ∨ ∃ stream, .writeFailed stream ∈ notes turn.actions) ∧
    ∀ target, .connect target ∉ notes turn.actions

/-- The head of a 502 response. -/
def badGatewayAction (codec : Codec) (message : Bytes) : Action :=
  headAction .client codec (H1Codec.responseBytes (errorHead .badGateway message))
    (H3Codec.responseHeaderList (errorHead .badGateway message))

/-- The client is answered with a 502. -/
def BadGateway (turn : Transition) : Prop :=
  responses turn.source turn.input turn.target = 1 ∧
    ∃ message, badGatewayAction turn.source.clientCodec message ∈ turn.actions

/-- The second attempt, if there is one, goes to a fresh connection to the same endpoint. -/
structure Retries (turns : List Transition) (first again : Attempt) : Prop where
  bodiless : ∀ parsed ∈ requested turns, parsed.body = none
  failed : first.stream ∈ failedStreams turns
  head : again.head = first.head
  pooled : ∃ target endpoint, first.connection = some (target, first.stream, endpoint, true) ∧
    again.connection = some (.fresh endpoint, again.stream, endpoint, false)

/-- A request is sent twice at most. -/
structure RetryBounded (turns : List Transition) : Prop where
  twice : (attempts turns).length ≤ 2
  retries : ∀ first again, attempts turns = [first, again] → Retries turns first again
  /-- With a body source there is one attempt, and all of the body goes to its stream. -/
  once : ∀ parsed ∈ requested turns, parsed.body ≠ none → (attempts turns).length ≤ 1
  body : ∀ stream ∈ bodyStreams turns, ∃ only, attempts turns = [only] ∧ only.stream = stream
  /-- The client is answered once, so that a 502 is the only answer of its exchange. -/
  answered : responsesIn turns ≤ 1
  refused : ∀ turn ∈ turns, Refuses turn → BadGateway turn

/-! ## The operations that send a request -/

/-- Whether a retry is allowed. -/
def WriteThen.retry : WriteThen → Option Bool
  | .requestWritten retryAllowed => some retryAllowed
  | _ => none

/-- The stream that an operation writes a request to, and whether the relay may try again. -/
def Op.sends : Op → Option (Peer × Bool)
  | .writeHead dest _ _ next => next.retry.map (dest, ·)
  | .readBody dest _ _ _ next => next.retry.map (dest, ·)
  | .writeBody dest _ _ next => next.retry.map (dest, ·)
  | .finish dest next => next.retry.map (dest, ·)
  | _ => none

/-- There may be bytes of a body behind the operation. -/
def Op.hasBody : Op → Bool
  | .writeHead _ _ body _ => body.isSome
  | .readBody .. => true
  | .writeBody .. => true
  | _ => false

/-- No request is sent and no connection awaited. -/
def Op.Calm (op : Op) : Prop := op.sends = none ∧ ∀ target next, op ≠ .connect target next

/-- All that the decision to try again looks at is as it was. -/
structure SameRequest (relay after : RelaySession) : Prop where
  head : after.pendingHead = relay.pendingHead
  body : after.pendingBody = relay.pendingBody
  endpoint : after.backendEndpoint = relay.backendEndpoint
  fromPool : after.backendFromPool = relay.backendFromPool

/-- The callback answers with a 502. -/
structure Refused (relay after : RelaySession) : Prop where
  answer : ∃ body, after.pending = [.writeHead .client relay.clientCodec body .errorWritten]
  action : ∃ message, badGatewayAction relay.clientCodec message ∈ after.out

/-- The callback writes the head of a request, and keeps what it may need to do so again. -/
structure Sends (stream : TransportStream) (retry : Bool) (head : HttpRequestHead)
    (body : Option BodySource) (after : RelaySession) : Prop where
  op : ∃ op, after.pending = [op] ∧ op.sends = some (.backend stream, retry) ∧
    op.hasBody = body.isSome
  keepsHead : after.pendingHead = some head
  keepsBody : after.pendingBody = body
  noted : notes after.out = [.head stream head]

/-- What a step means for the request of the exchange. -/
inductive Moves (relay : RelaySession) : Input → RelaySession → Prop where
  | begins {op : Op} {completion : Completion} {after : RelaySession} (parsed : ParsedRequest)
      (target : ConnectTarget) (next : ConnectThen)
      (quiet : Input.connectFails (.complete op completion) = false)
      (isNext : next = .tunnel ∨ ∃ head, next = .useBackend head parsed.body)
      (pending : after.pending = [.connect target next])
      (noted : notes after.out = [.request parsed, .connect target]) :
      Moves relay (.complete op completion) after
  | rejects {op : Op} {completion : Completion} {after : RelaySession} (parsed : ParsedRequest)
      (quiet : Input.connectFails (.complete op completion) = false)
      (calm : ∀ op ∈ after.pending, op.Calm) (noted : notes after.out = [.request parsed]) :
      Moves relay (.complete op completion) after
  | unreachable {after : RelaySession} (target : ConnectTarget) (next : ConnectThen)
      (ec : ErrorCode) (waits : relay.pending = [.connect target next])
      (refused : Refused relay after) (noted : notes after.out = []) :
      Moves relay (.complete (.connect target next) (.connected (.error ec))) after
  | sends {after : RelaySession} (target : ConnectTarget) (head : HttpRequestHead)
      (body : Option BodySource) (stream : TransportStream) (endpoint : BackendEndpoint)
      (fromPool : Bool) (waits : relay.pending = [.connect target (.useBackend head body)])
      (sends : Sends stream true head body after) (isEndpoint : after.backendEndpoint = endpoint)
      (isPooled : after.backendFromPool = fromPool) :
      Moves relay (.complete (.connect target (.useBackend head body))
        (.connected (.ok (stream, endpoint, fromPool)))) after
  | resends {after : RelaySession} (target : ConnectTarget) (head : HttpRequestHead)
      (stream : TransportStream) (endpoint : BackendEndpoint) (fromPool : Bool)
      (waits : relay.pending = [.connect target .reconnected])
      (kept : relay.pendingHead = some head)
      (asked : ∀ wanted, target = .fresh wanted → endpoint = wanted ∧ fromPool = false)
      (sends : Sends stream false head relay.pendingBody after) :
      Moves relay (.complete (.connect target .reconnected)
        (.connected (.ok (stream, endpoint, fromPool)))) after
  | proceeds {op op' : Op} {completion : Completion} {after : RelaySession}
      (stream : TransportStream) (retry : Bool) (waits : relay.pending = [op])
      (isSend : op.sends = some (.backend stream, retry)) (pending : after.pending = [op'])
      (sends : op'.sends = some (.backend stream, retry))
      (bodies : op'.hasBody = true → op.hasBody = true) (same : SameRequest relay after)
      (noted : notes after.out = [] ∨ op.hasBody = true ∧ notes after.out = [.body stream]) :
      Moves relay (.complete op completion) after
  | retries {op : Op} {completion : Completion} {after : RelaySession} (stream : TransportStream)
      (waits : relay.pending = [op]) (isSend : op.sends = some (.backend stream, true))
      (pooled : relay.backendFromPool = true) (bodiless : relay.pendingBody = none)
      (pending : after.pending = [.connect (.fresh relay.backendEndpoint) .reconnected])
      (same : SameRequest relay after)
      (noted : notes after.out =
        [.writeFailed stream, .connect (.fresh relay.backendEndpoint)]) :
      Moves relay (.complete op completion) after
  | fails {op : Op} {completion : Completion} {after : RelaySession} (stream : TransportStream)
      (retry : Bool) (waits : relay.pending = [op])
      (isSend : op.sends = some (.backend stream, retry)) (refused : Refused relay after)
      (noted : notes after.out = [.writeFailed stream]) :
      Moves relay (.complete op completion) after
  /-- A request has been written, a tunnel opens, or no request is on its way. -/
  | rests {input : Input} {after : RelaySession} (quiet : input.connectFails = false)
      (calm : ∀ op ∈ after.pending, op.Calm) (noted : notes after.out = []) :
      Moves relay input after
  | stays {input : Input} {after : RelaySession} (quiet : input.connectFails = false)
      (pending : after.pending = relay.pending) (same : SameRequest relay after)
      (noted : notes after.out = []) : Moves relay input after

/-! ## Actions without a note -/

section Notes

variable {relay : RelaySession}

@[simp]
theorem notes_nil : notes [] = [] := rfl

@[simp]
theorem notes_append (first second : List Action) :
    notes (first ++ second) = notes first ++ notes second :=
  List.filterMap_append

@[simp]
theorem notes_cons (action : Action) (actions : List Action) :
    notes (action :: actions) = action.note.toList ++ notes actions := by
  rw [notes, List.filterMap_cons]
  cases action.note <;> rfl

@[simp]
theorem notes_arrivals (op : Op) (completion : Completion) :
    notes (arrivals op completion) = [] := by
  unfold arrivals
  split
  · split <;> rfl
  · rfl

@[simp]
theorem notes_closeActions : notes relay.closeActions = [] := by
  unfold closeActions
  cases relay.backend <;> rfl

@[simp]
theorem notes_finishActions (keepAlive : Bool) : notes (relay.finishActions keepAlive) = [] := by
  unfold finishActions
  cases relay.backend <;> cases keepAlive <;> rfl

@[simp]
theorem notes_phaseChange (phase : Phase) : notes (relay.phaseChange phase) = [] := by
  unfold phaseChange
  split <;> rfl

@[simp]
theorem note_request (parsed : ParsedRequest) :
    Action.note (.request parsed) = some (.request parsed) := rfl

@[simp]
theorem note_requestTo (stream : TransportStream) (head : HttpRequestHead) :
    Action.note (.requestTo stream head) = some (.head stream head) := rfl

@[simp]
theorem note_connect (target : ConnectTarget) :
    Action.note (.connect target) = some (.connect target) := rfl

@[simp]
theorem note_writeFailed (stream : TransportStream) (ec : ErrorCode) :
    Action.note (.messageDone (.backend stream) (some ec)) = some (.writeFailed stream) := rfl

@[simp]
theorem note_messageDone (dest : Peer) : Action.note (.messageDone dest none) = none := by
  cases dest <;> rfl

@[simp]
theorem note_read (peer : Peer) (capacity : ℕ) : Action.note (.read peer capacity) = none := rfl

@[simp]
theorem note_write (peer : Peer) (data : Bytes) : Action.note (.write peer data) = none := rfl

@[simp]
theorem note_shutdown (peer : Peer) : Action.note (.shutdown peer) = none := rfl

@[simp]
theorem note_phase (phase : Phase) : Action.note (.phase phase) = none := rfl

@[simp]
theorem note_response (stream : TransportStream) (parsed : ParsedResponse) :
    Action.note (.response stream parsed) = none := rfl

@[simp]
theorem note_nullBackend : Action.note .nullBackend = none := rfl

@[simp]
theorem note_idleTimeout (kick : ℕ) : Action.note (.idleTimeout kick) = none := rfl

@[simp]
theorem note_parseAction (peer : Peer) (codec : Codec) : (parseAction peer codec).note = none := by
  cases codec <;> rfl

@[simp]
theorem note_headAction (dest : Peer) (codec : Codec) (bytes : Bytes) (headers : HeaderList) :
    (headAction dest codec bytes headers).note = none := by
  cases codec <;> rfl

@[simp]
theorem notes_teardownActions : notes relay.teardownActions = [] := by
  unfold teardownActions
  split <;> simp

theorem notes_teardown : notes relay.teardown.out = notes relay.out := by
  cases running : relay.done with
  | true => rw [teardown_of_done _ running]
  | false => simp [teardown_eq _ running]

theorem notes_writeResponse (head : HttpResponseHead) (body : Option MessageBody)
    (next : WriteThen) : notes (relay.writeResponse head body next).out = notes relay.out := by
  simp [writeResponse, writeMessage_eq]

theorem notes_ends {op : Op} {completion : Completion} {dest : Peer} {codec : Codec}
    {next : WriteThen} {ec : Option ErrorCode} {shown : List Action}
    (ends : Ends op completion dest codec next ec shown) : notes shown = [] := by
  cases ends <;> rfl

end Notes

/-! ## Every step is such a move -/

variable {stream : TransportStream}

section Moves

variable {relay after : RelaySession} {op : Op} {completion : Completion} {dest : Peer}
  {codec : Codec} {next : WriteThen} {ec : Option ErrorCode} {out : List Action}

theorem calm_parseOp (peer : Peer) (codec : Codec) : (parseOp peer codec).Calm := by
  cases codec
  · exact ⟨rfl, by simp [parseOp]⟩
  · exact ⟨rfl, by simp [parseOp]⟩

/-- Only the writer of a request writes to a backend. -/
theorem Writing.dest_of_retry {body : Option MessageBody}
    (writing : relay.Writing dest codec body next) :
    next.retry = none ∧ dest = .client ∨
      ∃ retry stream, next = .requestWritten retry ∧ dest = .backend stream := by
  cases next with
  | requestWritten retry =>
    rcases writing with ⟨stream, -, isDest, -⟩
    exact .inr ⟨retry, stream, rfl, isDest⟩
  | responseWritten | upgraded | tunnelOpened =>
    rcases writing with ⟨stream, -, isDest, -⟩
    exact .inl ⟨rfl, isDest⟩
  | errorWritten => exact .inl ⟨rfl, writing.2.1⟩

theorem refused_writeError {mid : RelaySession} (empty : mid.pending = [])
    (sameCodec : mid.clientCodec = relay.clientCodec) (message : Bytes) :
    Refused relay (mid.writeError .badGateway message) := by
  rw [writeError, writeResponse, writeMessage_eq]
  constructor
  · refine ⟨some ⟨.client, .buffer message 0⟩, ?_⟩
    simp [empty, sameCodec]
  · refine ⟨message, ?_⟩
    simp [badGatewayAction, sameCodec]

theorem calm_writeResponse {mid : RelaySession} (empty : mid.pending = [])
    (other : next.retry = none) (head : HttpResponseHead) (body : Option MessageBody) :
    ∀ op ∈ (mid.writeResponse head body next).pending, op.Calm := by
  rw [writeResponse, writeMessage_eq]
  simp [empty, Op.Calm, Op.sends, other]

/-- The relay answers the client, and the request is not heard of. -/
theorem moves_writeResponse {mid : RelaySession} {input : Input}
    (quiet : input.connectFails = false) (empty : mid.pending = [])
    (unnoted : notes mid.out = []) (other : next.retry = none) (head : HttpResponseHead)
    (body : Option MessageBody) : relay.Moves input (mid.writeResponse head body next) := by
  apply Moves.rests quiet
  · exact calm_writeResponse empty other head body
  · rw [notes_writeResponse]
    exact unnoted

theorem AfterResponse.calm (continues : relay.AfterResponse after) (empty : relay.pending = []) :
    ∀ op ∈ after.pending, op.Calm := by
  cases continues with
  | finished done => simp [empty]
  | nextRequest | shutDown | drain => simp [empty, Op.Calm, Op.sends]

theorem AfterResponse.notes_eq (continues : relay.AfterResponse after) :
    notes after.out = notes relay.out := by
  cases continues <;> simp

/-- The callback of a writer runs, after actions that say no more than that. -/
theorem Resumes.moves {body : Option MessageBody}
    (resumes : Resumes { relay with pending := [], out } next ec after)
    (waits : relay.pending = [op]) (isSend : op.sends = next.retry.map (dest, ·))
    (quiet : Input.connectFails (.complete op completion) = false)
    (writing : relay.Writing dest codec body next)
    (noted : notes out = (Action.note (.messageDone dest ec)).toList) :
    relay.Moves (.complete op completion) after := by
  have unnoted : next.retry = none → notes out = [] := by
    intro other
    rcases writing.dest_of_retry with ⟨-, rfl⟩ | ⟨retry, stream, rfl, -⟩
    · exact noted
    · cases other
  cases resumes with
  | awaitsResponse retryAllowed idleTimer stream isBackend =>
    refine .rests quiet ?_ ?_
    · simpa using calm_parseOp (.backend stream) relay.backendCodec
    · simpa using noted
  | losesBackend retryAllowed idleTimer gone =>
    refine .rests quiet (by simp) ?_
    simpa using noted
  | reconnects ec pooled bodiless =>
    rcases writing with ⟨stream, -, rfl, -⟩
    refine .retries stream waits isSend pooled bodiless rfl ⟨rfl, rfl, rfl, rfl⟩ ?_
    simp [noted]
  | writeFails retryAllowed ec final =>
    rcases writing with ⟨stream, -, rfl, -⟩
    refine .fails stream retryAllowed waits isSend ?_ ?_
    · apply refused_writeError
      · rfl
      · rfl
    · rw [writeError, notes_writeResponse]
      simp [noted]
  | exchanged keepAlive ec continues =>
    refine .rests quiet (continues.calm rfl) ?_
    rw [continues.notes_eq]
    simp [unnoted rfl]
  | rejected ec continues =>
    refine .rests quiet (continues.calm rfl) ?_
    rw [continues.notes_eq]
    exact unnoted rfl
  | bridges next stream fromPool isBackend opens =>
    have isNone : next.retry = none := by rcases opens with rfl | rfl <;> rfl
    refine .rests quiet (by simp [Op.Calm, Op.sends]) ?_
    simp [unnoted isNone]
  | bridgesNothing next fromPool gone opens =>
    have isNone : next.retry = none := by rcases opens with rfl | rfl <;> rfl
    refine .rests quiet (by simp) ?_
    simp [unnoted isNone]
  | bridgeFails next ec opens =>
    have isNone : next.retry = none := by rcases opens with rfl | rfl <;> rfl
    refine .rests quiet ?_ ?_
    · simp [pending_teardown]
    · rw [notes_teardown]
      exact unnoted isNone

theorem Advances.sends_eq {body : MessageBody} {bodyStep : BodySource × BodyStep}
    (advances : Advances op completion dest codec body next bodyStep) :
    op.sends = next.retry.map (dest, ·) ∧ op.hasBody = true ∧
      Input.connectFails (.complete op completion) = false := by
  cases advances <;> exact ⟨rfl, rfl, rfl⟩

theorem Ends.sends_eq {shown : List Action} (ends : Ends op completion dest codec next ec shown) :
    op.sends = next.retry.map (dest, ·) ∧
      Input.connectFails (.complete op completion) = false := by
  cases ends with
  | headFails | headIsAll | pieceFails => exact ⟨rfl, rfl⟩
  | bodyFails advances fails => exact ⟨advances.sends_eq.1, advances.sends_eq.2.2⟩
  | bodyEnds advances exhausted => exact ⟨advances.sends_eq.1, advances.sends_eq.2.2⟩

theorem not_connect_of_requestProgress {progress : H1Codec.Progress ParsedRequest}
    (requesting : requestProgress op completion = some progress) :
    Input.connectFails (.complete op completion) = false := by
  unfold requestProgress at requesting
  split at requesting <;> first | rfl | cases requesting

theorem not_connect_of_responseProgress {progress : H1Codec.Progress ParsedResponse}
    (responding : responseProgress stream op completion = some progress) :
    Input.connectFails (.complete op completion) = false := by
  rcases op_of_responseProgress responding with ⟨buf, rfl⟩ | rfl
  · rfl
  · rfl

theorem sameRequest_teardown (relay : RelaySession) : SameRequest relay relay.teardown := by
  refine teardown_cases relay (fun _ => ?_) fun _ => ?_
  · exact ⟨rfl, rfl, rfl, rfl⟩
  · exact ⟨rfl, rfl, rfl, rfl⟩

/-- A message goes on: that of a request with its stream, any other without a note. -/
theorem moves_of_pump {op' : Op} {body : Option MessageBody} (waits : relay.pending = [op])
    (isSend : op.sends = next.retry.map (dest, ·))
    (quiet : Input.connectFails (.complete op completion) = false)
    (bodies : op'.hasBody = true → op.hasBody = true) (sends : op'.sends = next.retry.map (dest, ·))
    (other : ∀ target next, op' ≠ .connect target next)
    (writing : relay.Writing dest codec body next) (pending : after.pending = [op'])
    (same : SameRequest relay after) (noted : notes after.out = [] ∨ op.hasBody = true ∧ ∃ data,
      notes after.out = (Action.note (.delivered dest data)).toList) :
    relay.Moves (.complete op completion) after := by
  rcases writing.dest_of_retry with ⟨isNone, rfl⟩ | ⟨retry, stream, rfl, rfl⟩
  · refine .rests quiet ?_ ?_
    · rw [pending]
      rintro op ⟨⟩
      · exact ⟨by rw [sends, isNone]; rfl, other⟩
      · contradiction
    · rcases noted with noted | ⟨-, data, noted⟩
      · exact noted
      · exact noted
  · refine .proceeds stream retry waits isSend pending sends bodies same ?_
    rcases noted with noted | ⟨hasBody, data, noted⟩
    · exact .inl noted
    · exact .inr ⟨hasBody, noted⟩

theorem Handled.moves
    (handled : Handled { relay with pending := [], out := arrivals op completion } op completion
      after) (waits : relay.pending = [op]) (awaits : relay.Awaits op)
    (fits : relay.Fits op completion = true) : relay.Moves (.complete op completion) after := by
  cases handled with
  | requestMore progress =>
    refine .rests (not_connect_of_requestProgress progress) ?_ ?_
    · simp [Op.Calm, Op.sends]
    · simp
  | requestFails ec progress =>
    refine .rests (not_connect_of_requestProgress progress) ?_ ?_
    · simp [pending_teardown]
    · simp [notes_teardown]
  | @requestForwarded _ _ parsed progress idleTimer target next connects =>
    refine .begins parsed target next (not_connect_of_requestProgress progress) ?_ rfl ?_
    · unfold connectionFor at connects
      split at connects
      · cases connects
        exact .inl rfl
      · cases connects
        exact .inr ⟨_, rfl⟩
      · cases connects
        exact .inr ⟨_, rfl⟩
      · cases connects
    · simp [connect, served, emit, await]
  | @requestRejected _ _ parsed progress idleTimer status message rejects =>
    refine .rejects parsed (not_connect_of_requestProgress progress) ?_ ?_
    · exact calm_writeResponse rfl rfl _ _
    · rw [writeError, notes_writeResponse]
      simp [served]
  | connectFails target next ec message =>
    refine .unreachable target next ec waits ?_ ?_
    · apply refused_writeError
      · rfl
      · rfl
    · rw [writeError, notes_writeResponse]
      simp
  | requestSent target head body stream endpoint fromPool idleTimer =>
    refine .sends target head body stream endpoint fromPool waits
      ⟨⟨_, rfl, rfl, ?_⟩, rfl, rfl, ?_⟩ rfl rfl
    · simp [Op.hasBody]
    · simp
  | tunnelAccepted target stream endpoint fromPool =>
    exact moves_writeResponse rfl rfl (by simp) rfl _ _
  | requestResent target stream endpoint fromPool head kept =>
    refine .resends target head stream endpoint fromPool waits kept ?_
      ⟨⟨_, rfl, rfl, ?_⟩, kept, rfl, ?_⟩
    · rintro wanted rfl
      simp [Fits] at fits
      exact fits.2
    · simp [Op.hasBody]
    · simp
  | bodyAsks advances asks =>
    rcases advances.sends_eq with ⟨isSend, hasBody, quiet⟩
    refine moves_of_pump waits isSend quiet (fun _ => hasBody) rfl (by simp)
      (advances.writing_body awaits) rfl ⟨rfl, rfl, rfl, rfl⟩ (.inl ?_)
    simp
  | @pieceSent _ _ dest _ _ _ _ data advances delivers nonempty =>
    rcases advances.sends_eq with ⟨isSend, hasBody, quiet⟩
    refine moves_of_pump waits isSend quiet (fun _ => hasBody) rfl (by simp)
      (advances.writing_body awaits) rfl ⟨rfl, rfl, rfl, rfl⟩ (.inr ⟨hasBody, data, ?_⟩)
    simp
  | finishes ends =>
    rcases ends.sends_eq with ⟨isSend, quiet⟩
    refine moves_of_pump waits isSend quiet (by simp [Op.hasBody]) rfl (by simp)
      (ends.writing awaits) rfl ⟨rfl, rfl, rfl, rfl⟩ (.inl ?_)
    simp [notes_ends ends]
  | @messageEnds _ _ dest next ec shown after ends resumes =>
    rcases ends.sends_eq with ⟨isSend, quiet⟩
    have resumed : Resumes { relay with
        pending := [], out := arrivals op completion ++ shown ++ [.messageDone dest ec] }
        next ec after := resumes
    refine resumed.moves waits isSend quiet (ends.writing awaits) ?_
    simp [notes_ends ends]
  | @finished dest next ec after resumes =>
    have resumed : Resumes { relay with
        pending := []
        out := arrivals (.finish dest next) (.written ec) ++ [.messageDone dest ec] }
        next ec after := resumes
    refine resumed.moves waits rfl rfl awaits ?_
    simp
  | responseMore progress =>
    refine .rests (not_connect_of_responseProgress progress) ?_ ?_
    · simp [Op.Calm, Op.sends]
    · simp
  | responseFails ec progress =>
    have quiet := not_connect_of_responseProgress progress
    exact moves_writeResponse quiet rfl (by simp) rfl _ _
  | upgradeAnswered progress idleTimer upgrades =>
    have quiet := not_connect_of_responseProgress progress
    exact moves_writeResponse quiet rfl (by simp [answered]) rfl _ _
  | responseAnswered progress idleTimer plain =>
    have quiet := not_connect_of_responseProgress progress
    exact moves_writeResponse quiet rfl (by simp [answered]) rfl _ _
  | drainReads data examined idleTimer running =>
    refine .rests rfl ?_ ?_
    · simp [Op.Calm, Op.sends]
    · simp
  | drainEnds completion =>
    refine .rests rfl ?_ ?_
    · simp [pending_teardown]
    · simp [notes_teardown]

theorem Outcome.moves {input : Input} (outcome : relay.Outcome input after) :
    relay.Moves input after := by
  cases outcome with
  | exchange waits awaits fits handled => exact handled.moves waits awaits fits
  | tunnel bridging holds directions carries outstanding fits carried =>
    have stays := fun op opMem => (carried.carriesOn rfl directions op opMem).exists_carries
    refine .rests ?_ ?_ ?_
    · rcases carries with rfl | rfl <;> rfl
    · intro op isOp
      rcases stays op isOp with ⟨src, dst, rfl | rfl⟩
      · exact ⟨rfl, by simp⟩
      · exact ⟨rfl, by simp⟩
    · cases carried with
      | ends => simp [notes_teardown]
      | _ => simp
  | ignored done carries outstanding fits =>
    refine .rests ?_ (by simp) (by simp)
    rcases carries with rfl | rfl <;> rfl
  | timedOut kick expired queued =>
    refine .stays rfl (pending_teardown _) ?_ ?_
    · rcases sameRequest_teardown { relay with
          idleTimer := { relay.idleTimer with expired }, out := [.idleTimeout kick] } with
        ⟨head, body, endpoint, fromPool⟩
      exact ⟨head, body, endpoint, fromPool⟩
    · simp [notes_teardown]
  | expired | shutsDown | drains | alreadyClosed =>
    exact .stays rfl rfl ⟨rfl, rfl, rfl, rfl⟩ (by simp)

end Moves

/-! ## Where the request of an exchange is -/

/-- The request has been written to one stream, and the relay remembers all of it. -/
structure TriedOnce (turns : List Transition) (parsed : ParsedRequest) (target : ConnectTarget)
    (only : Attempt) (relay : RelaySession) : Prop where
  isRequest : requested turns = [parsed]
  tried : attempts turns = [only]
  keepsBody : relay.pendingBody = parsed.body
  keepsHead : relay.pendingHead = some only.head
  connection : only.connection =
    some (target, only.stream, relay.backendEndpoint, relay.backendFromPool)
  unsent : parsed.body = none → bodyStreams turns = []

/-- What the relay waits for, and what it remembers, against what the exchange has shown. -/
inductive Stage (turns : List Transition) (relay : RelaySession) : Prop where
  | settled (calm : ∀ op ∈ relay.pending, op.Calm)
  | connecting (parsed : ParsedRequest) (target : ConnectTarget) (next : ConnectThen)
      (pending : relay.pending = [.connect target next])
      (isNext : next = .tunnel ∨ ∃ head, next = .useBackend head parsed.body)
      (isRequest : requested turns = [parsed]) (untried : attempts turns = [])
  | sending (parsed : ParsedRequest) (target : ConnectTarget) (only : Attempt) (op : Op)
      (once : TriedOnce turns parsed target only relay) (pending : relay.pending = [op])
      (isSend : op.sends = some (.backend only.stream, true))
      (carries : op.hasBody = true → parsed.body ≠ none)
  | reconnecting (parsed : ParsedRequest) (target : ConnectTarget) (first : Attempt)
      (once : TriedOnce turns parsed target first relay)
      (pending : relay.pending = [.connect (.fresh relay.backendEndpoint) .reconnected])
      (pooled : relay.backendFromPool = true) (bodiless : parsed.body = none)
      (failed : first.stream ∈ failedStreams turns)
  | resending (stream : TransportStream) (op : Op) (pending : relay.pending = [op])
      (isSend : op.sends = some (.backend stream, false)) (bodiless : op.hasBody = false)

section Stages

variable {turns : List Transition} {turn : Transition} {relay next : RelaySession}

theorem exchange_append (log : List Transition) (turn : Transition) :
    exchange (log ++ [turn]) =
      if requestsIn turn.actions = 0 then exchange log ++ [turn] else [turn] := by
  rw [exchange, List.foldl_append]
  rfl

theorem requestsIn_eq (actions : List Action) :
    requestsIn actions = ((notes actions).filterMap Note.parsedRequest).length := by
  induction actions with
  | nil => rfl
  | cons action later ih =>
    rw [requestsIn_cons, notes_cons, List.filterMap_append, List.length_append, ih, Nat.add_comm]
    congr 1
    cases action with
    | delivered dest data => cases dest <;> rfl
    | messageDone dest ec => cases dest <;> cases ec <;> rfl
    | _ => rfl

theorem requested_append :
    requested (turns ++ [turn]) =
      requested turns ++ (notes turn.actions).filterMap Note.parsedRequest := by
  simp [requested]

theorem attempts_append :
    attempts (turns ++ [turn]) =
      attempts turns ++ (notes turn.actions).filterMap (Note.attempt turn.input) := by
  simp [attempts]

theorem bodyStreams_append :
    bodyStreams (turns ++ [turn]) =
      bodyStreams turns ++ (notes turn.actions).filterMap Note.bodyStream := by
  simp [bodyStreams]

theorem failedStreams_append :
    failedStreams (turns ++ [turn]) =
      failedStreams turns ++ (notes turn.actions).filterMap Note.failedStream := by
  simp [failedStreams]

/-- Nothing has been asked of a backend. -/
theorem retryBounded_of_untried (untried : attempts turns = []) (unsent : bodyStreams turns = [])
    (answered : responsesIn turns ≤ 1) (refused : ∀ turn ∈ turns, Refuses turn → BadGateway turn) :
    RetryBounded turns := by
  refine ⟨by simp [untried], ?_, by simp [untried], by simp [unsent], answered, refused⟩
  intro first again tried
  simp [untried] at tried

/-- The turn neither parses a request nor writes a head. -/
structure Headless (turn : Transition) : Prop where
  noRequest : (notes turn.actions).filterMap Note.parsedRequest = []
  noAttempt : (notes turn.actions).filterMap (Note.attempt turn.input) = []

theorem headless_of_forall (plain : ∀ note ∈ notes turn.actions,
    note.parsedRequest = none ∧ note.attempt turn.input = none) : Headless turn := by
  constructor
  · apply List.filterMap_eq_nil_iff.mpr
    intro note isNote
    exact (plain note isNote).1
  · apply List.filterMap_eq_nil_iff.mpr
    intro note isNote
    exact (plain note isNote).2

theorem headless_of_silent (noted : notes turn.actions = []) : Headless turn := by
  apply headless_of_forall
  simp [noted]

/-- A turn in which no head and no body is sent. -/
theorem RetryBounded.append (bounded : RetryBounded turns) (headless : Headless turn)
    (noBody : (notes turn.actions).filterMap Note.bodyStream = [])
    (answered : responsesIn (turns ++ [turn]) ≤ 1) (refused : Refuses turn → BadGateway turn) :
    RetryBounded (turns ++ [turn]) := by
  have sameRequest : requested (turns ++ [turn]) = requested turns := by
    rw [requested_append, headless.noRequest, List.append_nil]
  have sameAttempts : attempts (turns ++ [turn]) = attempts turns := by
    rw [attempts_append, headless.noAttempt, List.append_nil]
  have sameBody : bodyStreams (turns ++ [turn]) = bodyStreams turns := by
    rw [bodyStreams_append, noBody, List.append_nil]
  refine ⟨?_, ?_, ?_, ?_, answered, ?_⟩
  · rw [sameAttempts]
    exact bounded.twice
  · intro first again tried
    rw [sameAttempts] at tried
    rcases bounded.retries first again tried with ⟨bodiless, failed, head, pooled⟩
    refine ⟨?_, ?_, head, pooled⟩
    · rw [sameRequest]
      exact bodiless
    · rw [failedStreams_append]
      exact List.mem_append_left _ failed
  · rw [sameAttempts, sameRequest]
    exact bounded.once
  · rw [sameAttempts, sameBody]
    exact bounded.body
  · simp only [List.mem_append, List.mem_singleton]
    rintro turn (earlier | rfl)
    · exact bounded.refused turn earlier
    · exact refused

/-- Nothing fails in the turn. -/
theorem not_refuses (quiet : turn.input.connectFails = false)
    (unfailed : (notes turn.actions).filterMap Note.failedStream = []) : ¬ Refuses turn := by
  rintro ⟨fails | ⟨stream, fails⟩, -⟩
  · cases quiet.symm.trans fails
  · have listed : stream ∈ (notes turn.actions).filterMap Note.failedStream :=
      List.mem_filterMap.mpr ⟨_, fails, rfl⟩
    rw [unfailed] at listed
    cases listed

theorem RetryBounded.append_silent (bounded : RetryBounded turns)
    (quiet : turn.input.connectFails = false) (noted : notes turn.actions = [])
    (answered : responsesIn (turns ++ [turn]) ≤ 1) : RetryBounded (turns ++ [turn]) := by
  apply bounded.append (headless_of_silent noted) (by simp [noted]) answered
  intro refuses
  exact absurd refuses (not_refuses quiet (by simp [noted]))

/-- A turn that says nothing of the request. -/
theorem TriedOnce.append {parsed : ParsedRequest} {target : ConnectTarget} {only : Attempt}
    (once : TriedOnce turns parsed target only relay) (same : SameRequest relay next)
    (headless : Headless turn)
    (noBody : parsed.body = none → (notes turn.actions).filterMap Note.bodyStream = []) :
    TriedOnce (turns ++ [turn]) parsed target only next := by
  refine ⟨?_, ?_, same.body.trans once.keepsBody, same.head.trans once.keepsHead, ?_, ?_⟩
  · rw [requested_append, headless.noRequest, List.append_nil]
    exact once.isRequest
  · rw [attempts_append, headless.noAttempt, List.append_nil]
    exact once.tried
  · rw [same.endpoint, same.fromPool]
    exact once.connection
  · intro bodiless
    rw [bodyStreams_append, once.unsent bodiless, noBody bodiless, List.append_nil]

theorem Stage.still (stage : Stage turns relay) (pending : next.pending = relay.pending)
    (same : SameRequest relay next) (noted : notes turn.actions = []) :
    Stage (turns ++ [turn]) next := by
  cases stage with
  | settled calm => exact .settled (pending ▸ calm)
  | connecting parsed target connected waits isNext isRequest untried =>
    refine .connecting parsed target connected (pending.trans waits) isNext ?_ ?_
    · rw [requested_append, noted, isRequest]
      rfl
    · rw [attempts_append, noted, untried]
      rfl
  | sending parsed target only op once waits isSend carries =>
    refine .sending parsed target only op ?_ (pending.trans waits) isSend carries
    exact once.append same (headless_of_silent noted) (by simp [noted])
  | reconnecting parsed target first once waits pooled bodiless failed =>
    refine .reconnecting parsed target first ?_ ?_ (same.fromPool.trans pooled) bodiless ?_
    · exact once.append same (headless_of_silent noted) (by simp [noted])
    · rw [pending, same.endpoint]
      exact waits
    · rw [failedStreams_append]
      exact List.mem_append_left _ failed
  | resending stream op waits isSend bodiless =>
    exact .resending stream op (pending.trans waits) isSend bodiless

/-- Which stages wait for the write of a request. -/
theorem Stage.of_sends {op : Op} {retry : Bool} (stage : Stage turns relay)
    (waits : relay.pending = [op]) (isSend : op.sends = some (.backend stream, retry)) :
    (∃ parsed target only, TriedOnce turns parsed target only relay ∧ only.stream = stream ∧
        retry = true ∧ (op.hasBody = true → parsed.body ≠ none)) ∨
      retry = false ∧ op.hasBody = false := by
  cases stage with
  | settled calm =>
    rw [waits] at calm
    cases isSend.symm.trans (calm op List.mem_cons_self).1
  | connecting _ _ _ waits' =>
    cases waits'.symm.trans waits
    cases isSend
  | reconnecting _ _ _ _ waits' =>
    cases waits'.symm.trans waits
    cases isSend
  | sending parsed target only op' once waits' isSend' carries =>
    cases waits'.symm.trans waits
    cases isSend.symm.trans isSend'
    exact .inl ⟨parsed, target, only, once, rfl, rfl, carries⟩
  | resending stream' op' waits' isSend' bodiless =>
    cases waits'.symm.trans waits
    cases isSend.symm.trans isSend'
    exact .inr ⟨rfl, bodiless⟩

/-- Which stages wait for a connection. -/
theorem Stage.of_connect {target : ConnectTarget} {connected : ConnectThen}
    (stage : Stage turns relay) (waits : relay.pending = [.connect target connected]) :
    (∃ parsed, (connected = .tunnel ∨ ∃ head, connected = .useBackend head parsed.body) ∧
        requested turns = [parsed] ∧ attempts turns = []) ∨
      ∃ parsed target' first, TriedOnce turns parsed target' first relay ∧
        connected = .reconnected ∧ target = .fresh relay.backendEndpoint ∧
        relay.backendFromPool = true ∧ parsed.body = none ∧
        first.stream ∈ failedStreams turns := by
  cases stage with
  | settled calm =>
    rw [waits] at calm
    exact absurd rfl ((calm _ List.mem_cons_self).2 _ _)
  | connecting parsed target' connected' pending isNext isRequest untried =>
    cases pending.symm.trans waits
    exact .inl ⟨parsed, isNext, isRequest, untried⟩
  | reconnecting parsed target' first once pending pooled bodiless failed =>
    cases pending.symm.trans waits
    exact .inr ⟨parsed, target', first, once, rfl, rfl, pooled, bodiless, failed⟩
  | sending _ _ _ op _ pending isSend =>
    cases pending.symm.trans waits
    cases isSend
  | resending stream op pending isSend =>
    cases pending.symm.trans waits
    cases isSend

end Stages

section Steps

variable {turns : List Transition} {relay after : RelaySession} {op : Op}
  {completion : Completion} {input : Input}

/-- The turn that a callback makes. -/
def turnOf (relay : RelaySession) (input : Input) (after : RelaySession) : Transition :=
  ⟨relay, input, after.out, { after with out := [] }⟩

theorem Refused.badGateway (refused : Refused relay after) (waits : relay.pending = [op]) :
    BadGateway (turnOf relay (.complete op completion) after) := by
  refine ⟨?_, refused.action⟩
  rcases refused.answer with ⟨body, isAnswer⟩
  show relay.responses (.complete op completion) { after with out := [] } = 1
  simp [responses, started, Input.left, waits, isAnswer, Op.isResponse]

theorem Refused.calm (refused : Refused relay after) : ∀ op ∈ after.pending, op.Calm := by
  rcases refused.answer with ⟨body, isAnswer⟩
  rw [isAnswer]
  simp [Op.Calm, Op.sends, WriteThen.retry]

theorem bodyStreams_of_untried (bounded : RetryBounded turns) (untried : attempts turns = []) :
    bodyStreams turns = [] := by
  apply List.eq_nil_iff_forall_not_mem.mpr
  intro stream isBody
  rcases bounded.body stream isBody with ⟨only, tried, -⟩
  simp [untried] at tried

variable {turn : Transition}

/-- A turn that cannot fail keeps what is known of the failures. -/
theorem RetryBounded.refused_append (bounded : RetryBounded turns) (quiet : ¬ Refuses turn) :
    ∀ turn' ∈ turns ++ [turn], Refuses turn' → BadGateway turn' := by
  simp only [List.mem_append, List.mem_singleton]
  rintro turn' (earlier | rfl)
  · exact bounded.refused turn' earlier
  · intro refuses
    exact absurd refuses quiet

/-- What the turn adds that writes a head. -/
theorem Sends.append {retry : Bool} {head : HttpRequestHead} {body : Option BodySource}
    (sends : Sends stream retry head body after) (isActions : turn.actions = after.out) :
    requested (turns ++ [turn]) = requested turns ∧
      attempts (turns ++ [turn]) = attempts turns ++ [⟨stream, head, turn.input.connection⟩] ∧
      bodyStreams (turns ++ [turn]) = bodyStreams turns ∧
      failedStreams (turns ++ [turn]) = failedStreams turns ∧
      (notes turn.actions).filterMap Note.failedStream = [] := by
  have noted := sends.noted
  rw [← isActions] at noted
  refine ⟨?_, ?_, ?_, ?_, ?_⟩
  · rw [requested_append, noted]
    exact List.append_nil _
  · rw [attempts_append, noted]
    rfl
  · rw [bodyStreams_append, noted]
    exact List.append_nil _
  · rw [failedStreams_append, noted]
    exact List.append_nil _
  · rw [noted]
    rfl

/-- The first attempt. -/
theorem tracked_sends {target : ConnectTarget} {head : HttpRequestHead} {body : Option BodySource}
    (bounded : RetryBounded turns) (stage : Stage turns relay)
    (waits : relay.pending = [.connect target (.useBackend head body)])
    (sends : Sends stream true head body after) (isActions : turn.actions = after.out)
    (connection : turn.input.connection =
      some (target, stream, after.backendEndpoint, after.backendFromPool))
    (quiet : turn.input.connectFails = false) (answered : responsesIn (turns ++ [turn]) ≤ 1) :
    RetryBounded (turns ++ [turn]) ∧ Stage (turns ++ [turn]) after := by
  rcases stage.of_connect waits with
    ⟨parsed, isUse, isRequest, untried⟩ | ⟨_, _, _, _, isReconnect, _⟩
  case inr => cases isReconnect
  rcases isUse with isTunnel | ⟨head', isUse⟩
  · cases isTunnel
  cases isUse
  rcases sends.append isActions with ⟨sameRequest, tried, sameBody, -, unfailed⟩
  rw [untried, List.nil_append] at tried
  rw [bodyStreams_of_untried bounded untried] at sameBody
  constructor
  · refine ⟨by simp [tried], ?_, by simp [tried], by simp [sameBody], answered,
      bounded.refused_append (not_refuses quiet unfailed)⟩
    intro first again two
    simp [tried] at two
  · rcases sends.op with ⟨op, pending, isSend, hasBody⟩
    refine .sending parsed target ⟨stream, head, turn.input.connection⟩ op ?_ pending isSend ?_
    · exact ⟨sameRequest.trans isRequest, tried, sends.keepsBody, sends.keepsHead, connection,
        fun _ => sameBody⟩
    · intro carries
      rw [hasBody] at carries
      exact Option.isSome_iff_ne_none.mp carries

/-- The second attempt. -/
theorem tracked_resends {target : ConnectTarget} {head : HttpRequestHead}
    {endpoint : BackendEndpoint} {fromPool : Bool} (bounded : RetryBounded turns)
    (stage : Stage turns relay) (waits : relay.pending = [.connect target .reconnected])
    (kept : relay.pendingHead = some head)
    (asked : ∀ wanted, target = .fresh wanted → endpoint = wanted ∧ fromPool = false)
    (sends : Sends stream false head relay.pendingBody after) (isActions : turn.actions = after.out)
    (connection : turn.input.connection = some (target, stream, endpoint, fromPool))
    (quiet : turn.input.connectFails = false) (answered : responsesIn (turns ++ [turn]) ≤ 1) :
    RetryBounded (turns ++ [turn]) ∧ Stage (turns ++ [turn]) after := by
  rcases stage.of_connect waits with
    ⟨_, isTunnel | ⟨_, isUse⟩, _⟩ |
      ⟨parsed, target', first, once, -, isFresh, pooled, bodiless, failed⟩
  · cases isTunnel
  · cases isUse
  rcases sends.append isActions with ⟨sameRequest, tried, sameBody, sameFailures, unfailed⟩
  rcases sends.op with ⟨op, pending, isSend, hasBody⟩
  rcases asked _ isFresh with ⟨rfl, rfl⟩
  rw [once.tried] at tried
  rw [once.unsent bodiless] at sameBody
  rw [once.isRequest] at sameRequest
  constructor
  · refine ⟨by simp [tried], ?_, ?_, by simp [sameBody], answered,
      bounded.refused_append (not_refuses quiet unfailed)⟩
    · intro first' again two
      rw [tried] at two
      cases two
      refine ⟨?_, ?_, Option.some.inj (kept.symm.trans once.keepsHead), target',
        relay.backendEndpoint, ?_, ?_⟩
      · rw [sameRequest]
        simpa using bodiless
      · rw [sameFailures]
        exact failed
      · rw [← pooled]
        exact once.connection
      · rw [← isFresh]
        exact connection
    · rw [sameRequest]
      simp [bodiless]
  · refine .resending stream op pending isSend ?_
    rw [hasBody, once.keepsBody, bodiless]
    rfl

/-- The write of a request goes on, maybe with a piece of its body. -/
theorem tracked_proceeds {op' : Op} {retry : Bool} (bounded : RetryBounded turns)
    (stage : Stage turns relay) (waits : relay.pending = [op])
    (isSend : op.sends = some (.backend stream, retry)) (pending : after.pending = [op'])
    (sends : op'.sends = some (.backend stream, retry))
    (bodies : op'.hasBody = true → op.hasBody = true) (same : SameRequest relay after)
    (noted : notes turn.actions = [] ∨ op.hasBody = true ∧ notes turn.actions = [.body stream])
    (quiet : turn.input.connectFails = false) (answered : responsesIn (turns ++ [turn]) ≤ 1) :
    RetryBounded (turns ++ [turn]) ∧ Stage (turns ++ [turn]) after := by
  have headless : Headless turn := by
    apply headless_of_forall
    rcases noted with noted | ⟨-, noted⟩ <;> simp [noted, Note.parsedRequest, Note.attempt]
  have unfailed : (notes turn.actions).filterMap Note.failedStream = [] := by
    rcases noted with noted | ⟨-, noted⟩ <;> rw [noted] <;> rfl
  have refused : Refuses turn → BadGateway turn := fun refuses =>
    absurd refuses (not_refuses quiet unfailed)
  rcases stage.of_sends waits isSend with
    ⟨parsed, target, only, once, rfl, rfl, carries⟩ | ⟨rfl, bodiless⟩
  · have noBody : parsed.body = none → (notes turn.actions).filterMap Note.bodyStream = [] := by
      intro bodiless
      rcases noted with noted | ⟨hasBody, -⟩
      · rw [noted]
        rfl
      · exact absurd bodiless (carries hasBody)
    have still := once.append same headless noBody
    refine ⟨?_, .sending parsed target only op' still pending sends fun has => carries (bodies has)⟩
    rcases noted with noted | ⟨hasBody, noted⟩
    · exact bounded.append headless (by simp [noted]) answered refused
    · refine ⟨by simp [still.tried], ?_, by simp [still.tried], ?_, answered,
        bounded.refused_append (not_refuses quiet unfailed)⟩
      · intro first again two
        simp [still.tried] at two
      · rw [bodyStreams_append, noted]
        simp only [List.mem_append]
        rintro stream (earlier | latest)
        · rcases bounded.body stream earlier with ⟨only', tried, isStream⟩
          cases once.tried.symm.trans tried
          exact ⟨only, still.tried, isStream⟩
        · refine ⟨only, still.tried, ?_⟩
          simpa [Note.bodyStream, eq_comm] using latest
  · have unnoted : notes turn.actions = [] := by
      rcases noted with noted | ⟨hasBody, -⟩
      · exact noted
      · cases hasBody.symm.trans bodiless
    refine ⟨bounded.append headless (by simp [unnoted]) answered refused, ?_⟩
    refine .resending stream op' pending sends ?_
    by_contra has
    cases (bodies (by simpa using has)).symm.trans bodiless

/-- A connect or write fails, and the client is told so. -/
theorem tracked_refused (bounded : RetryBounded turns) (refused : Refused relay after)
    (bad : BadGateway turn)
    (noted : notes turn.actions = [] ∨ ∃ stream, notes turn.actions = [.writeFailed stream])
    (answered : responsesIn (turns ++ [turn]) ≤ 1) :
    RetryBounded (turns ++ [turn]) ∧ Stage (turns ++ [turn]) after := by
  refine ⟨?_, .settled refused.calm⟩
  apply bounded.append ?_ ?_ answered (fun _ => bad)
  · apply headless_of_forall
    rcases noted with noted | ⟨stream, noted⟩ <;> simp [noted, Note.parsedRequest, Note.attempt]
  · rcases noted with noted | ⟨stream, noted⟩ <;> rw [noted] <;> rfl

/-- The write fails, and the relay connects afresh. -/
theorem tracked_retries (bounded : RetryBounded turns) (stage : Stage turns relay)
    (waits : relay.pending = [op]) (isSend : op.sends = some (.backend stream, true))
    (pooled : relay.backendFromPool = true) (bodiless : relay.pendingBody = none)
    (pending : after.pending = [.connect (.fresh relay.backendEndpoint) .reconnected])
    (same : SameRequest relay after)
    (noted : notes turn.actions = [.writeFailed stream, .connect (.fresh relay.backendEndpoint)])
    (answered : responsesIn (turns ++ [turn]) ≤ 1) :
    RetryBounded (turns ++ [turn]) ∧ Stage (turns ++ [turn]) after := by
  have connects : ¬ Refuses turn := by
    rintro ⟨-, none⟩
    apply none (.fresh relay.backendEndpoint)
    simp [noted]
  rcases stage.of_sends waits isSend with ⟨parsed, target, only, once, rfl, -, -⟩ | ⟨other, -⟩
  case inr => cases other
  have headless : Headless turn := by
    apply headless_of_forall
    simp [noted, Note.parsedRequest, Note.attempt]
  have noBody : (notes turn.actions).filterMap Note.bodyStream = [] := by
    rw [noted]
    rfl
  refine ⟨bounded.append headless noBody answered ?_, ?_⟩
  · intro refuses
    exact absurd refuses connects
  refine .reconnecting parsed target only (once.append same headless fun _ => noBody) ?_
    (same.fromPool.trans pooled) (once.keepsBody.symm.trans bodiless) ?_
  · rw [same.endpoint]
    exact pending
  · simp [failedStreams_append, noted, Note.failedStream]

theorem Stage.clear (stage : Stage turns relay) : Stage turns { relay with out := [] } := by
  cases stage with
  | settled calm => exact .settled calm
  | connecting parsed target connected pending isNext isRequest untried =>
    exact .connecting parsed target connected pending isNext isRequest untried
  | sending parsed target only op once pending isSend carries =>
    rcases once with ⟨isRequest, tried, keepsBody, keepsHead, connection, unsent⟩
    exact .sending parsed target only op
      ⟨isRequest, tried, keepsBody, keepsHead, connection, unsent⟩ pending isSend carries
  | reconnecting parsed target first once pending pooled bodiless failed =>
    rcases once with ⟨isRequest, tried, keepsBody, keepsHead, connection, unsent⟩
    exact .reconnecting parsed target first
      ⟨isRequest, tried, keepsBody, keepsHead, connection, unsent⟩ pending pooled bodiless failed
  | resending stream op pending isSend bodiless =>
    exact .resending stream op pending isSend bodiless

/-- A turn that parses a request begins an exchange. -/
theorem tracked_begins {parsed : ParsedRequest} (noted : notes turn.actions = [.request parsed] ∨
      ∃ target, notes turn.actions = [.request parsed, .connect target])
    (quiet : turn.input.connectFails = false) (answered : responsesIn [turn] ≤ 1) :
    RetryBounded [turn] ∧ requested [turn] = [parsed] ∧ attempts [turn] = [] := by
  have untried : attempts [turn] = [] := by
    rcases noted with noted | ⟨target, noted⟩ <;> simp [attempts, noted, Note.attempt]
  have unsent : bodyStreams [turn] = [] := by
    rcases noted with noted | ⟨target, noted⟩ <;> simp [bodyStreams, noted, Note.bodyStream]
  have unfailed : (notes turn.actions).filterMap Note.failedStream = [] := by
    rcases noted with noted | ⟨target, noted⟩ <;> rw [noted] <;> rfl
  refine ⟨retryBounded_of_untried untried unsent answered ?_, ?_, untried⟩
  · simp only [List.mem_singleton]
    rintro turn' rfl refuses
    exact absurd refuses (not_refuses quiet unfailed)
  · rcases noted with noted | ⟨target, noted⟩ <;> simp [requested, noted, Note.parsedRequest]

theorem quiet_of_sends {peer : Peer} {retry : Bool} (isSend : op.sends = some (peer, retry)) :
    Input.connectFails (.complete op completion) = false := by
  cases op with
  | connect target next => cases isSend
  | _ => rfl

/-- Every move keeps an exchange within its bounds, or begins one. -/
theorem Moves.tracked (moves : relay.Moves input after) (bounded : RetryBounded turns)
    (stage : Stage turns relay) (isTurn : turn = turnOf relay input after)
    {turns' : List Transition}
    (isExchange : turns' = if requestsIn turn.actions = 0 then turns ++ [turn] else [turn])
    (answered : responsesIn turns' ≤ 1) : RetryBounded turns' ∧ Stage turns' after := by
  rw [requestsIn_eq] at isExchange
  have goesOn : (notes turn.actions).filterMap Note.parsedRequest = [] →
      turns' = turns ++ [turn] := by
    intro noRequest
    rw [isExchange, noRequest]
    rfl
  have isActions : turn.actions = after.out := congrArg Machine.Transition.actions isTurn
  have isInput : turn.input = input := congrArg Machine.Transition.input isTurn
  cases moves with
  | begins parsed target next quiet isNext pending noted =>
    rw [← isActions] at noted
    rw [noted, if_neg (by simp [Note.parsedRequest])] at isExchange
    subst isExchange
    rw [← isInput] at quiet
    rcases tracked_begins (.inr ⟨target, noted⟩) quiet answered with
      ⟨bounded, isRequest, untried⟩
    exact ⟨bounded, .connecting parsed target next pending isNext isRequest untried⟩
  | rejects parsed quiet calm noted =>
    rw [← isActions] at noted
    rw [noted, if_neg (by simp [Note.parsedRequest])] at isExchange
    subst isExchange
    rw [← isInput] at quiet
    exact ⟨(tracked_begins (.inl noted) quiet answered).1, .settled calm⟩
  | unreachable target next ec waits refused noted =>
    rw [← isActions] at noted
    cases goesOn (by simp [noted])
    refine tracked_refused bounded refused ?_ (.inl noted) answered
    rw [isTurn]
    exact refused.badGateway waits
  | sends target head body stream endpoint fromPool waits sends isEndpoint isPooled =>
    cases goesOn (by simp [isActions, sends.noted, Note.parsedRequest])
    refine tracked_sends bounded stage waits sends isActions ?_ ?_ answered
    · rw [isInput, isEndpoint, isPooled]
      rfl
    · rw [isInput]
      rfl
  | resends target head stream endpoint fromPool waits kept asked sends =>
    cases goesOn (by simp [isActions, sends.noted, Note.parsedRequest])
    refine tracked_resends bounded stage waits kept asked sends isActions ?_ ?_ answered
    · rw [isInput]
      rfl
    · rw [isInput]
      rfl
  | proceeds stream retry waits isSend pending sends bodies same noted =>
    rw [← isActions] at noted
    have noRequest : (notes turn.actions).filterMap Note.parsedRequest = [] := by
      rcases noted with noted | ⟨-, noted⟩ <;> simp [noted, Note.parsedRequest]
    cases goesOn noRequest
    refine tracked_proceeds bounded stage waits isSend pending sends bodies same noted ?_ answered
    rw [isInput]
    exact quiet_of_sends isSend
  | retries stream waits isSend pooled bodiless pending same noted =>
    rw [← isActions] at noted
    cases goesOn (by simp [noted, Note.parsedRequest])
    exact tracked_retries bounded stage waits isSend pooled bodiless pending same noted answered
  | fails stream retry waits isSend refused noted =>
    rw [← isActions] at noted
    cases goesOn (by simp [noted, Note.parsedRequest])
    refine tracked_refused bounded refused ?_ (.inr ⟨stream, noted⟩) answered
    rw [isTurn]
    exact refused.badGateway waits
  | rests quiet calm noted =>
    rw [← isActions] at noted
    cases goesOn (by simp [noted])
    rw [← isInput] at quiet
    exact ⟨bounded.append_silent quiet noted answered, .settled calm⟩
  | stays quiet pending same noted =>
    rw [← isActions] at noted
    cases goesOn (by simp [noted])
    rw [← isInput] at quiet
    exact ⟨bounded.append_silent quiet noted answered, stage.still pending same noted⟩

/-- What is written in an exchange and what is owed in it are one response. -/
theorem owed_append (owed : responsesIn turns + relay.owes ≤ 1)
    (accounted : Accounted relay input { after with out := [] } after.out) :
    responsesIn (if requestsIn (turnOf relay input after).actions = 0 then
        turns ++ [turnOf relay input after] else [turnOf relay input after]) +
      owes { after with out := [] } ≤ 1 := by
  have pays := accounted.pays
  have single := accounted.single
  have alone : responsesIn [turnOf relay input after] =
      relay.responses input { after with out := [] } := by
    simp [responsesIn, turnOf]
  have isActions : (turnOf relay input after).actions = after.out := rfl
  rw [isActions]
  split_ifs with goesOn
  · rw [responsesIn_append, alone]
    omega
  · rw [alone]
    omega

/-! ## Every exchange of every run -/

theorem tracked_of_runs {clientCodec : Codec} {rules : List Router.Rule} {idleTimeout : ℕ}
    {log : List Transition} (runs : Runs (logged step) anyInput
      (start clientCodec rules idleTimeout) log relay) :
    relay.Control ∧ RetryBounded (exchange log) ∧ Stage (exchange log) relay ∧
      responsesIn (exchange log) + relay.owes ≤ 1 := by
  apply Runs.invariant ?_ ?_ runs
  · have control := control_start clientCodec rules idleTimeout
    refine ⟨control, ?_, ?_, ?_⟩
    · exact retryBounded_of_untried rfl rfl (Nat.zero_le 1) (by simp [exchange])
    · rcases requestPhase_eq { clientCodec, rules, idleTimeout } with ⟨idleTimer, entered⟩
      rw [start, entered]
      refine .settled ?_
      simpa using calm_parseOp .client clientCodec
    · rcases requestPhase_eq { clientCodec, rules, idleTimeout } with ⟨idleTimer, entered⟩
      rw [start, entered]
      cases clientCodec <;> simp [exchange, responsesIn, owes, parseOp, Op.unanswered]
  · rintro log relay input next turns ⟨control, bounded, stage, owed⟩ _ recorded
    rcases logged_eq_some_iff.mp recorded with ⟨actions, taken, rfl⟩
    have accounted := accounted_of_step control taken
    rcases outcome_of_step control taken with ⟨after, outcome, controlled, rfl, rfl⟩
    have isExchange := exchange_append log (turnOf relay input after)
    have owed' := owed_append owed accounted
    rw [← isExchange] at owed'
    have kept := outcome.moves.tracked bounded stage rfl isExchange (by omega)
    exact ⟨controlled.update _ _ _, kept.1, kept.2.clear, owed'⟩

/--
Stale-connection retry: at every point of every run, the exchange so far has written its head to
at most two streams, the second time only after a pooled connection failed a request without a
body, and has answered every other failure by one 502.
-/
theorem retry_bounded {clientCodec : Codec} {rules : List Router.Rule} {idleTimeout : ℕ}
    {log : List Transition}
    (runs : Runs (logged step) anyInput
      (start clientCodec rules idleTimeout) log relay) :
    ∀ before after, log = before ++ after → RetryBounded (exchange before) := by
  intro before after split
  cases after with
  | nil =>
    rw [List.append_nil] at split
    rw [← split]
    exact (tracked_of_runs runs).2.1
  | cons turn later => exact (tracked_of_runs (runs.before_logged split).1).2.1

end Steps

/-- The pooled connection turns out to be closed, and a new one is made. -/
def staleConnection : List Input :=
  let endpoint : BackendEndpoint := ⟨ascii "b", ascii "h", 80, .TCP⟩
  [.complete (.readHead .client [])
      (.read (.ok (ascii "GET / HTTP/1.1\r\nHost: a\r\n\r\n")) 0),
    .complete (.connect (.group (ascii "b")) (.useBackend plainHead none))
      (.connected (.ok (⟨1, .TCP⟩, endpoint, true))),
    .complete (.writeHead (.backend ⟨1, .TCP⟩) .h1 none (.requestWritten true))
      (.written (some .connectionReset)),
    .complete (.connect (.fresh endpoint) .reconnected)
      (.connected (.ok (⟨2, .TCP⟩, endpoint, false)))]

theorem retry_bounded_staleConnection :
    ∃ log relay, Runs (logged step) anyInput (start .h1 anyHost 30) log
        relay ∧
      (attempts (exchange log)).map Attempt.stream = [⟨1, .TCP⟩, ⟨2, .TCP⟩] ∧
      RetryBounded (exchange log) := by
  have reached : (run (logged step) (fun _ _ => true) (start .h1 anyHost 30)
      staleConnection).any (fun last =>
        decide ((attempts (exchange last.2)).map Attempt.stream = [⟨1, .TCP⟩, ⟨2, .TCP⟩])) =
        true := by
    decide +kernel
  rcases exists_runs_any reached with ⟨log, relay, runs, tried⟩
  exact ⟨log, relay, runs, tried,
    retry_bounded runs log [] (List.append_nil log).symm⟩

end RelaySession

end ReverseProxy
