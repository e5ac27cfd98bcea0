import ReverseProxy.Codec.H1.Delimiting
import ReverseProxy.Http1.Responses
import ReverseProxy.Machine.Monitor
import ReverseProxy.Relay.Footprint

/-!
# The boundary behind a response

`finish_backend` gives a TCP stream back to the pool when the response on it allowed that.
The trace shows what has been read from the stream since the last request on it; the next
borrower starts at a message boundary only if that reaches to the end of the final
response.

A relay takes the first response head for the final one, trusts the body source that the
codec chose for it, and does not look at how the relaying of the body ended.  Streams are
given back in the middle of a response exactly where one of these goes wrong.
-/

namespace ReverseProxy

open Machine Text H1Codec

namespace RelaySession

/-- What a trace shows of a backend stream since the last request on it. -/
structure StreamView where
  /-- A request has been written to the stream. -/
  asked : Bool := false
  method : Bytes := []
  received : Bytes := []
  deriving DecidableEq

/-- Follows one backend stream. -/
def StreamView.watch (stream : TransportStream) (view : StreamView) : Action → StreamView
  | .requestTo stream' head =>
    if stream' = stream then { asked := true, method := head.method } else view
  | .received (.backend stream') data =>
    if stream' = stream then { view with received := view.received ++ data } else view
  | _ => view

/-- The final response to the last request has been read to its end. -/
def StreamView.AtBoundary (view : StreamView) : Prop :=
  Rfc9112.ReadsFinal view.method view.received

/-- A TCP stream is given back, and used for a further request, at a message boundary only. -/
def StreamCheck (stream : TransportStream) (view : StreamView) : Action → Prop
  | .release _ stream' => stream' = stream → stream.protocol = .TCP → view.AtBoundary
  | .requestTo stream' _ =>
    stream' = stream → stream.protocol = .TCP → view.asked = true → view.AtBoundary
  | _ => True

/-! ## Steps that reach the boundary -/

/--
A response that leaves its connection open is final and announces, by RFC 9112, no more
than what has been read of its body and what the body source is still to read.
-/
def readsResponse (relay : RelaySession) (stream : TransportStream) (text : Bytes)
    (parsed : ParsedResponse) : Bool :=
  !parsed.keepAlive || (relay.requestIsUpgrade && parsed.head.statusCode = 101) ||
    match Rfc9112.responseHead? text with
    | some (status, fields, rest) =>
      status / 100 ≠ 1 &&
        match Rfc9112.responseFraming relay.requestMethod status fields,
          leftToRead ((relay.clientBody stream parsed).map MessageBody.source) with
        | .length bytes, some left => bytes ≤ rest.length + left
        | _, _ => false
    | none => false

/-- The source of a message's body, if its backend stream may be used again. -/
def WriteThen.responseBody (next : WriteThen) (body : Option MessageBody) : Option BodySource :=
  match next with
  | .responseWritten true => body.map MessageBody.source
  | _ => none

/-- The body source that an outstanding operation relays from a stream that may be used again. -/
def Op.responseBody : Op → Option BodySource
  | .writeHead _ _ body next => next.responseBody body
  | .readBody _ _ body _ next | .writeBody _ _ body next => next.responseBody (some body)
  | _ => none

/-- The response that a completion brings from a stream can be read whole. -/
def readsWholeResponse (relay : RelaySession) (op : Op) (completion : Completion) : Bool :=
  match op with
  | .readHead (.backend stream) _ =>
    (responseProgress stream op completion).all fun
      | .complete parsed => relay.readsResponse stream (headerText op completion) parsed
      | _ => true
  | _ => true

/--
As long as the relay holds its backend stream, parsed responses can be read whole and no
operation fails while a body is still to be read from a stream that may be used again.
-/
def ReadsResponses (relay : RelaySession) : Input → Prop
  | .complete op completion =>
    relay.backend.isSome = true →
      (leftToRead op.responseBody ≠ some 0 → completion.fails = false) ∧
        relay.readsWholeResponse op completion = true
  | _ => True

instance (relay : RelaySession) : ∀ input, Decidable (relay.ReadsResponses input)
  | .complete _ _ => inferInstanceAs (Decidable (_ → _ ∧ _))
  | .timerExpires | .timerHandler | .gracefulClose => .isTrue trivial

/-! ## What is left of a response -/

/-- All of the final response but at most `left` bytes of its body has been read. -/
def StreamView.Reached (view : StreamView) (left : ℕ) : Prop :=
  ∃ status fields body bytes,
    Rfc9112.responseHead? view.received = some (status, fields, body) ∧ status / 100 ≠ 1 ∧
      Rfc9112.responseFraming view.method status fields = .length bytes ∧
      bytes ≤ body.length + left

theorem StreamView.Reached.append {view : StreamView} {left : ℕ} (reached : view.Reached left)
    (data : Bytes) :
    StreamView.Reached { view with received := view.received ++ data } (left - data.length) := by
  rcases reached with ⟨status, fields, body, bytes, head, final, framing, bound⟩
  refine ⟨status, fields, body ++ data, bytes, ?_, final, framing, ?_⟩
  · exact Rfc9112.responseHead?_append head data
  · simp only [List.length_append]
    omega

theorem StreamView.Reached.atBoundary {view : StreamView} (reached : view.Reached 0) :
    view.AtBoundary := by
  rcases reached with ⟨status, fields, body, bytes, head, final, framing, bound⟩
  exact Rfc9112.readsFinal_of_length head final framing bound

/-- A response that the codec has parsed, on a stream that may be used again. -/
theorem reached_of_readsResponse {relay : RelaySession} {stream : TransportStream}
    {parsed : ParsedResponse} {view : StreamView}
    (reads : relay.readsResponse stream view.received parsed = true)
    (isMethod : view.method = relay.requestMethod)
    (plain : ¬(relay.requestIsUpgrade = true ∧ parsed.head.statusCode = 101))
    (keepAlive : parsed.keepAlive = true) :
    ∃ left, leftToRead ((relay.clientBody stream parsed).map MessageBody.source) = some left ∧
      view.Reached left := by
  unfold readsResponse at reads
  simp only [keepAlive, Bool.not_true, Bool.false_or, Bool.or_eq_true, Bool.and_eq_true,
    decide_eq_true_eq, plain, false_or] at reads
  split at reads
  · rename_i status fields rest head
    rw [Bool.and_eq_true, decide_eq_true_eq] at reads
    rcases reads with ⟨final, covered⟩
    split at covered
    · rename_i bytes left framing isLeft
      refine ⟨left, isLeft, status, fields, rest, bytes, head, final, ?_, ?_⟩
      · rw [isMethod]
        exact framing
      · exact of_decide_eq_true covered
    · simp at covered
  · simp at reads

/-! ## Invariant -/

/-- The view of a stream at the end of a callback. -/
def seenOn (relay : RelaySession) (stream : TransportStream) (view : StreamView) : StreamView :=
  relay.out.foldl (StreamView.watch stream) view

/-- What a TCP stream has seen while a message of an exchange is written. -/
def Exchanges (relay : RelaySession) (stream : TransportStream) (view : StreamView)
    (body : Option BodySource) : WriteThen → Prop
  | .requestWritten _ =>
    (∀ head, relay.pendingHead = some head → head.method = relay.requestMethod) ∧
      (relay.backend = some stream →
        view.method = relay.requestMethod ∧ view.received = [])
  | .responseWritten keepAlive =>
    keepAlive = true → relay.backend = some stream →
      ∃ left, leftToRead body = some left ∧ view.Reached left
  | .upgraded | .tunnelOpened | .errorWritten => True

/-- What a TCP stream has seen while an operation is outstanding. -/
def Expects (relay : RelaySession) (stream : TransportStream) (view : StreamView) : Op → Prop
  | .readHead (.backend _) buf =>
    relay.backend = some stream → view.method = relay.requestMethod ∧ view.received = buf
  | .connect _ (.useBackend head _) => head.method = relay.requestMethod
  | .connect _ .reconnected =>
    ∀ head, relay.pendingHead = some head → head.method = relay.requestMethod
  | .writeHead _ _ body next => relay.Exchanges stream view (body.map MessageBody.source) next
  | .readBody _ _ body _ next | .writeBody _ _ body next =>
    relay.Exchanges stream view (some body.source) next
  | .finish _ next => relay.Exchanges stream view none next
  | _ => True

/-- A relay at the end of a callback. -/
structure Kept (stream : TransportStream) (view : StreamView) (relay : RelaySession) : Prop where
  passes : Always (StreamView.watch stream) (StreamCheck stream) view relay.out
  expects : ∀ op ∈ relay.pending, relay.Expects stream (relay.seenOn stream view) op

/-- A relay in the middle of a callback. -/
structure Reading (stream : TransportStream) (view : StreamView) (relay : RelaySession) :
    Prop where
  idle : relay.pending = []
  passes : Always (StreamView.watch stream) (StreamCheck stream) view relay.out

section Callbacks

variable {relay after : RelaySession} {stream : TransportStream} {view : StreamView}

theorem Exchanges.update {body : Option BodySource} {next : WriteThen}
    (exchanges : relay.Exchanges stream view body next)
    (sameMethod : after.requestMethod = relay.requestMethod)
    (sameHead : after.pendingHead = relay.pendingHead)
    (sameBackend : after.backend = some stream → relay.backend = some stream) :
    after.Exchanges stream view body next := by
  cases next with
  | requestWritten retryAllowed =>
    simp only [Exchanges, sameMethod, sameHead] at exchanges ⊢
    exact ⟨exchanges.1, fun isBackend => exchanges.2 (sameBackend isBackend)⟩
  | responseWritten keepAlive =>
    exact fun isKept isBackend => exchanges isKept (sameBackend isBackend)
  | upgraded | tunnelOpened | errorWritten => exact trivial

variable {op : Op}

theorem Expects.update (expects : relay.Expects stream view op)
    (sameMethod : after.requestMethod = relay.requestMethod)
    (sameHead : after.pendingHead = relay.pendingHead)
    (sameBackend : after.backend = some stream → relay.backend = some stream) :
    after.Expects stream view op := by
  cases op with
  | readHead peer buf =>
    cases peer with
    | client => exact trivial
    | backend stream' =>
      simp only [Expects, sameMethod] at expects ⊢
      exact fun isBackend => expects (sameBackend isBackend)
  | connect target next =>
    cases next with
    | useBackend head body => exact Eq.trans expects sameMethod.symm
    | tunnel => exact trivial
    | reconnected =>
      simp only [Expects, sameMethod, sameHead] at expects ⊢
      exact expects
  | writeHead dest codec body next => exact Exchanges.update expects sameMethod sameHead sameBackend
  | readBody dest codec body capacity next =>
    exact Exchanges.update expects sameMethod sameHead sameBackend
  | writeBody dest codec body next => exact Exchanges.update expects sameMethod sameHead sameBackend
  | finish dest next => exact Exchanges.update expects sameMethod sameHead sameBackend
  | takeHeaders peer => exact trivial
  | tunnelRead src dst => exact trivial
  | tunnelWrite src dst => exact trivial
  | drainRead => exact trivial

/-- Only the relay that holds a stream is concerned with what the stream has seen. -/
theorem Expects.other (expects : relay.Expects stream view op)
    (elsewhere : relay.backend ≠ some stream) (view' : StreamView) :
    relay.Expects stream view' op := by
  have exchanges : ∀ body next, relay.Exchanges stream view body next →
      relay.Exchanges stream view' body next := by
    intro body next exchanges
    cases next with
    | requestWritten retryAllowed =>
      exact ⟨exchanges.1, fun isBackend => absurd isBackend elsewhere⟩
    | responseWritten keepAlive => exact fun _ isBackend => absurd isBackend elsewhere
    | upgraded | tunnelOpened | errorWritten => exact trivial
  cases op with
  | readHead peer buf =>
    cases peer with
    | client => exact trivial
    | backend stream' => exact fun isBackend => absurd isBackend elsewhere
  | connect target next => cases next <;> exact expects
  | writeHead dest codec body next => exact exchanges _ _ expects
  | readBody dest codec body capacity next => exact exchanges _ _ expects
  | writeBody dest codec body next => exact exchanges _ _ expects
  | finish dest next => exact exchanges _ _ expects
  | takeHeaders peer => exact trivial
  | tunnelRead src dst => exact trivial
  | tunnelWrite src dst => exact trivial
  | drainRead => exact trivial

variable {actions : List Action}

theorem Streamless.ignored (streamless : Streamless actions) (stream : TransportStream) :
    Ignored (StreamView.watch stream) (StreamCheck stream) actions := by
  intro view
  induction actions with
  | nil => exact ⟨trivial, rfl⟩
  | cons action actions ih =>
    have unused := (streamless action (by simp)).1
    have same : view.watch stream action = view := by
      cases action with
      | received peer data => cases peer <;> simp_all [Action.streams, Peer.streams, StreamView.watch]
      | requestTo stream' head => simp [Action.streams] at unused
      | _ => rfl
    have passes : StreamCheck stream view action := by
      cases action with
      | release endpoint stream' => simp [Action.streams] at unused
      | requestTo stream' head => simp [Action.streams] at unused
      | _ => exact trivial
    rcases ih fun later laterMem => streamless later (by simp [laterMem]) with ⟨always, folds⟩
    rw [always_cons, List.foldl_cons, same]
    exact ⟨⟨passes, always⟩, folds⟩

theorem Reading.kept_of_streamless (reading : Reading stream view relay)
    (isAfter : after.out = relay.out ++ actions) (streamless : Streamless actions)
    (expects : ∀ op ∈ after.pending, after.Expects stream (relay.seenOn stream view) op) :
    Kept stream view after := by
  have ignored := streamless.ignored stream (relay.seenOn stream view)
  constructor
  · rw [isAfter]
    exact always_append.mpr ⟨reading.passes, ignored.1⟩
  · rw [seenOn, isAfter, List.foldl_append]
    exact ignored.2.symm ▸ expects

theorem Reading.kept_await (reading : Reading stream view relay)
    (isAfter : after.out = relay.out ++ actions) (streamless : Streamless actions)
    (waits : after.pending = relay.pending ++ [op])
    (expects : after.Expects stream (relay.seenOn stream view) op) : Kept stream view after := by
  apply reading.kept_of_streamless isAfter streamless
  rw [waits, reading.idle]
  simpa using expects

theorem Reading.more (reading : Reading stream view relay)
    (isAfter : after.out = relay.out ++ actions) (streamless : Streamless actions)
    (idle : after.pending = relay.pending) : Reading stream view after := by
  refine ⟨idle.trans reading.idle, ?_⟩
  rw [isAfter]
  exact always_append.mpr
    ⟨reading.passes, (streamless.ignored stream (relay.seenOn stream view)).1⟩

theorem seenOn_of_streamless (isAfter : after.out = relay.out ++ actions)
    (streamless : Streamless actions) : after.seenOn stream view = relay.seenOn stream view := by
  rw [seenOn, isAfter, List.foldl_append]
  exact (streamless.ignored stream _).2

theorem Reading.kept_writeResponse (reading : Reading stream view relay) (head : HttpResponseHead)
    (body : Option MessageBody) (next : WriteThen)
    (exchanges : relay.Exchanges stream (relay.seenOn stream view) (body.map MessageBody.source)
      next) : Kept stream view (relay.writeResponse head body next) := by
  rw [writeResponse, writeMessage_eq]
  apply reading.kept_await
  · rfl
  · exact streamless_headAction _ _ _ _
  · rfl
  · exact Exchanges.update exchanges rfl rfl id

theorem Reading.kept_writeError (reading : Reading stream view relay) (status : HttpStatus)
    (message : Bytes) : Kept stream view (relay.writeError status message) := by
  apply Reading.kept_writeResponse
  · exact ⟨reading.idle, reading.passes⟩
  · exact trivial

theorem kept_teardown (kept : Kept stream view relay) : Kept stream view relay.teardown := by
  refine teardown_cases relay (fun _ => ?_) fun _ => ?_
  · exact kept
  · have ignored := (streamless_teardownActions relay).ignored stream (relay.seenOn stream view)
    constructor
    · exact always_append.mpr ⟨kept.passes, ignored.1⟩
    · intro op opMem
      have expects := kept.expects op opMem
      rw [← ignored.2, seenOn, ← List.foldl_append] at expects
      exact expects.update rfl rfl (by simp)

theorem Reading.kept (reading : Reading stream view relay) : Kept stream view relay :=
  ⟨reading.passes, by simp [reading.idle]⟩

theorem AfterResponse.kept (continues : relay.AfterResponse after)
    (reading : Reading stream view relay) : Kept stream view after := by
  cases continues with
  | nextRequest idleTimer running keepAlive overTcp serving =>
    refine reading.kept_await (List.append_assoc _ _ _) ?_ rfl trivial
    exact (streamless_phaseChange relay .request).append (streamless_parseAction .client .h1)
  | shutDown running last =>
    refine reading.kept_await rfl ?_ rfl trivial
    simp [Streamless, Action.streams]
  | drain running overQuic serving =>
    refine reading.kept_await rfl ?_ rfl trivial
    simp [Streamless, Action.streams]
  | finished done => exact reading.kept

/-- What is released is at a message boundary. -/
theorem always_finishActions {body : Option BodySource} {keepAlive : Bool}
    (exchanges : relay.Exchanges stream view body (.responseWritten keepAlive))
    (whole : leftToRead body = some 0) :
    Always (StreamView.watch stream) (StreamCheck stream) view
      (relay.finishActions keepAlive) := by
  unfold finishActions
  cases connected : relay.backend with
  | none => exact trivial
  | some stream' =>
    cases keepAlive with
    | false => exact ⟨trivial, trivial⟩
    | true =>
      refine ⟨?_, trivial⟩
      rintro rfl -
      rcases exchanges rfl connected with ⟨left, isLeft, reached⟩
      rw [whole, Option.some.injEq] at isLeft
      subst isLeft
      exact reached.atBoundary

theorem Resumes.kept {next : WriteThen} {ec : Option ErrorCode}
    (resumes : relay.Resumes next ec after) (reading : Reading stream view relay)
    (exchanges : relay.Exchanges stream (relay.seenOn stream view) none next) :
    Kept stream view after := by
  cases resumes with
  | awaitsResponse retryAllowed idleTimer stream' isBackend =>
    refine reading.kept_await (List.append_assoc _ _ _) ?_ rfl ?_
    · exact (streamless_phaseChange relay .response).append (streamless_parseAction _ _)
    · cases relay.backendCodec with
      | h1 => exact exchanges.2
      | h3 => exact trivial
  | losesBackend retryAllowed idleTimer gone =>
    refine reading.kept_of_streamless (List.append_assoc _ _ _) ?_ (by simp [reading.idle])
    exact (streamless_phaseChange relay .response).append (by simp [Streamless, Action.streams])
  | reconnects ec pooled bodiless =>
    constructor
    · rw [always_append, always_append]
      have ignored := (streamless_closeActions relay).ignored stream (relay.seenOn stream view)
      exact ⟨⟨reading.passes, ignored.1⟩, trivial, trivial⟩
    · intro op opMem
      rw [reading.idle, List.nil_append, List.mem_singleton] at opMem
      subst opMem
      exact exchanges.1
  | writeFails retryAllowed ec final =>
    apply Reading.kept_writeError
    apply reading.more
    · rfl
    · exact streamless_closeActions relay
    · rfl
  | exchanged keepAlive ec continues =>
    apply continues.kept
    refine ⟨reading.idle, always_append.mpr ⟨reading.passes, ?_⟩⟩
    exact always_finishActions exchanges rfl
  | rejected ec continues => exact continues.kept reading
  | bridges next stream' fromPool isBackend opens =>
    refine reading.kept_of_streamless (List.append_assoc _ _ _) ?_ ?_
    · exact (streamless_phaseChange relay .bridge).append (by simp [Streamless, Action.streams])
    · simp [reading.idle, Expects]
  | bridgesNothing next fromPool gone opens =>
    refine reading.kept_of_streamless (List.append_assoc _ _ _) ?_ (by simp [reading.idle])
    exact (streamless_phaseChange relay .bridge).append (by simp [Streamless, Action.streams])
  | bridgeFails next ec opens => exact kept_teardown reading.kept

/-! ### Arrivals -/

theorem seen_of_other {completion : Completion}
    (elsewhere : ∀ capacity, op.reads ≠ some (.backend stream, capacity)) :
    (arrivals op completion).foldl (StreamView.watch stream) view = view := by
  unfold arrivals
  split
  · split
    · rename_i peer capacity reads
      cases peer with
      | client => rfl
      | backend stream' =>
        have other : stream' ≠ stream := by
          rintro rfl
          exact elsewhere _ reads
        simp [StreamView.watch, other]
    · rfl
  · rfl

theorem seen_of_read {capacity : ℕ} (reads : op.reads = some (.backend stream, capacity))
    (data : Bytes) (examined : UInt8) :
    (arrivals op (.read (.ok data) examined)).foldl (StreamView.watch stream) view =
      { view with received := view.received ++ data } := by
  simp [arrivals, reads, StreamView.watch]

theorem always_arrivals_check (op : Op) (completion : Completion) :
    Always (StreamView.watch stream) (StreamCheck stream) view
      (arrivals op completion) := by
  unfold arrivals
  split
  · split
    · exact ⟨trivial, trivial⟩
    · exact trivial
  · exact trivial

theorem nonempty_of_fits {capacity : ℕ} {data : Bytes} {examined : UInt8}
    (fits : relay.Fits op (.read (.ok data) examined) = true)
    (reads : op.reads = some (.backend stream, capacity)) (overTcp : stream.protocol = .TCP) :
    data ≠ [] := by
  cases op <;> simp_all [Op.reads, Fits, transport]

variable {stream' : TransportStream}

section Messages

variable {op : Op} {completion : Completion} {dest : Peer} {codec : Codec} {next : WriteThen}

/-- The view of a stream behind what a completion has brought. -/
def StreamView.arrived (view : StreamView) (stream : TransportStream) (op : Op)
    (completion : Completion) : StreamView :=
  (arrivals op completion).foldl (StreamView.watch stream) view

theorem StreamView.Reached.arrived (reached : view.Reached 0) (op : Op)
    (completion : Completion) : (view.arrived stream op completion).Reached 0 := by
  unfold StreamView.arrived arrivals
  split
  · rename_i data examined
    split
    · rename_i peer capacity reads
      cases peer with
      | client => exact reached
      | backend stream' =>
        by_cases same : stream' = stream
        · simpa [StreamView.watch, same] using reached.append data
        · simpa [StreamView.watch, same] using reached
    · exact reached
  · exact reached

variable {body : MessageBody} {bodyStep : BodySource × BodyStep}

theorem responseBody_of_advances (advances : Advances op completion dest codec body next bodyStep) :
    op.responseBody = next.responseBody (some body) := by
  cases advances <;> rfl

/-- A request is written while nothing is read from the backend. -/
theorem arrived_of_request (advances : Advances op completion dest codec body next bodyStep)
    (fromClient : body.peer = .client) : view.arrived stream op completion = view := by
  apply seen_of_other
  intro capacity
  cases advances <;> simp [Op.reads, fromClient]

/-- A step of the body source of a response on a stream that may be used again. -/
theorem Advances.reached {left : ℕ}
    (advances : Advances op completion dest codec body next bodyStep)
    (fromBackend : body.peer = .backend stream) (fits : relay.Fits op completion = true)
    (overTcp : stream.protocol = .TCP)
    (succeeds : leftToRead (some body.source) ≠ some 0 → completion.fails = false)
    (isLeft : leftToRead (some body.source) = some left) (reached : view.Reached left) :
    (∃ left', leftToRead (some bodyStep.1) = some left' ∧
        (view.arrived stream op completion).Reached left') ∧
      ((bodyStep.2 = .deliver (.ok []) ∨ ∃ ec, bodyStep.2 = .deliver (.error ec)) →
        (view.arrived stream op completion).Reached 0) := by
  cases advances with
  | headWritten | pieceWritten =>
    rcases leftToRead_asyncReadSome isLeft pumpSize with ⟨stillLeft, noError, whenDone⟩
    refine ⟨⟨left, stillLeft, reached⟩, ?_⟩
    rintro (ends | ⟨ec, fails⟩)
    · rw [whenDone ends] at reached
      exact reached
    · exact absurd fails (noError ec)
  | sourceRead _ _ _ capacity _ result examined =>
    have reads : Op.reads (.readBody dest codec body capacity next) =
        some (.backend stream, capacity) := by
      simp [Op.reads, fromBackend]
    cases result with
    | error ec =>
      have nothing : left = 0 := by
        by_contra some
        simp [Completion.fails, isLeft, some] at succeeds
      subst nothing
      have unread : leftToRead (some (body.source.onRead examined (.error ec)).1) = some 0 := by
        cases source : body.source <;> simp_all [BodySource.onRead, leftToRead]
      exact ⟨⟨0, unread, reached.arrived _ _⟩, fun _ => reached.arrived _ _⟩
    | ok data =>
      have something := nonempty_of_fits fits reads overTcp
      rcases leftToRead_onRead isLeft examined something with ⟨nowLeft, noError, whenDone⟩
      rw [StreamView.arrived, seen_of_read reads]
      refine ⟨⟨_, nowLeft, reached.append data⟩, ?_⟩
      rintro (ends | ⟨ec, fails⟩)
      · rw [whenDone ends] at reached
        simpa using reached.append data
      · exact absurd fails (noError ec)

theorem Holds.eq (holds : relay.Holds stream') (isBackend : relay.backend = some stream) :
    stream' = stream := by
  rcases holds with isHeld | ⟨-, gone⟩
  · simpa [isBackend] using isHeld.symm
  · simp [isBackend] at gone

/-- What an operation waits for is the rest of its body. -/
theorem Advances.exchanges_of_expects
    (advances : Advances op completion dest codec body next bodyStep)
    (expects : relay.Expects stream view op) :
    relay.Exchanges stream view (some body.source) next := by
  cases advances <;> exact expects

theorem Advances.exchanges (advances : Advances op completion dest codec body next bodyStep)
    (awaits : relay.Awaits op) (fits : relay.Fits op completion = true)
    (overTcp : stream.protocol = .TCP) (reads : relay.ReadsResponses (.complete op completion))
    (exchanges : relay.Exchanges stream view (some body.source) next) :
    relay.Exchanges stream (view.arrived stream op completion) (some bodyStep.1) next ∧
      ((bodyStep.2 = .deliver (.ok []) ∨ ∃ ec, bodyStep.2 = .deliver (.error ec)) →
        relay.Exchanges stream (view.arrived stream op completion) none next) := by
  have writing := advances.writing_body awaits
  cases next with
  | requestWritten retryAllowed =>
    rcases writing with ⟨_, -, -, -, -, -, fromClient⟩
    rw [arrived_of_request advances (fromClient body rfl)]
    exact ⟨exchanges, fun _ => exchanges⟩
  | responseWritten keepAlive =>
    rcases writing with ⟨stream', serves, -, -, -, fromBackend⟩
    have steps : keepAlive = true → relay.backend = some stream →
        (∃ left', leftToRead (some bodyStep.1) = some left' ∧
            (view.arrived stream op completion).Reached left') ∧
          ((bodyStep.2 = .deliver (.ok []) ∨ ∃ ec, bodyStep.2 = .deliver (.error ec)) →
            (view.arrived stream op completion).Reached 0) := by
      rintro rfl isBackend
      rcases exchanges rfl isBackend with ⟨left, isLeft, reached⟩
      have succeeds := (reads (by simp [isBackend])).1
      rw [responseBody_of_advances advances] at succeeds
      refine advances.reached ?_ fits overTcp succeeds isLeft reached
      rw [fromBackend body rfl, serves.1.eq isBackend]
    refine ⟨fun isKept isBackend => (steps isKept isBackend).1, ?_⟩
    exact fun ends isKept isBackend => ⟨0, rfl, (steps isKept isBackend).2 ends⟩
  | upgraded | tunnelOpened | errorWritten => exact ⟨trivial, fun _ => trivial⟩

/-- A message that has no more of its body to read, whether it was written or not. -/
theorem Exchanges.ended {body : Option BodySource}
    (exchanges : relay.Exchanges stream view body next)
    (whole : ∀ keepAlive, next = .responseWritten keepAlive → keepAlive = true →
      relay.backend.isSome = true → leftToRead body = some 0) :
    relay.Exchanges stream view none next := by
  cases next with
  | requestWritten retryAllowed => exact exchanges
  | responseWritten keepAlive =>
    intro isKept isBackend
    rcases exchanges isKept isBackend with ⟨left, isLeft, reached⟩
    rw [whole keepAlive rfl isKept (by simp [isBackend]), Option.some.injEq] at isLeft
    subst isLeft
    exact ⟨0, rfl, reached⟩
  | upgraded | tunnelOpened | errorWritten => exact trivial

theorem Ends.exchanges {ec : Option ErrorCode} {shown : List Action}
    (ends : Ends op completion dest codec next ec shown) (awaits : relay.Awaits op)
    (fits : relay.Fits op completion = true) (overTcp : stream.protocol = .TCP)
    (reads : relay.ReadsResponses (.complete op completion))
    (expects : relay.Expects stream view op) :
    relay.Exchanges stream (view.arrived stream op completion) none next := by
  -- An operation may only fail once its source has nothing left to read.
  have failing : ∀ body : Option MessageBody, op.responseBody = next.responseBody body →
      completion.fails = true → ∀ keepAlive, next = .responseWritten keepAlive →
        keepAlive = true → relay.backend.isSome = true →
          leftToRead (body.map MessageBody.source) = some 0 := by
    rintro body isBody fails keepAlive rfl rfl connected
    by_contra unread
    have succeeds := (reads connected).1
    rw [isBody] at succeeds
    simp [fails, WriteThen.responseBody, unread] at succeeds
  cases ends with
  | headFails _ _ body _ ec => exact Exchanges.ended expects (failing body rfl rfl)
  | headIsAll => exact Exchanges.ended expects fun _ _ _ _ => rfl
  | pieceFails _ _ body _ ec => exact Exchanges.ended expects (failing (some body) rfl rfl)
  | bodyFails advances fails =>
    have exchanges := advances.exchanges_of_expects expects
    exact (advances.exchanges awaits fits overTcp reads exchanges).2 (.inr ⟨_, fails⟩)
  | bodyEnds advances exhausted =>
    have exchanges := advances.exchanges_of_expects expects
    exact (advances.exchanges awaits fits overTcp reads exchanges).2 (.inl exhausted)

end Messages

/-! ### Heads -/

/-- A forwarded head has the method of the request. -/
theorem expects_connectionFor {rules : List Router.Rule} {parsed : ParsedRequest}
    {target : ConnectTarget} {next : ConnectThen}
    (connects : connectionFor rules parsed = some (target, next))
    (isMethod : relay.requestMethod = parsed.head.method) :
    relay.Expects stream view (.connect target next) := by
  have sameMethod : ∀ head, (dispatch rules parsed.head).forwarded = some head →
      head.method = parsed.head.method := by
    intro head forwarded
    rcases forwarded_dispatch forwarded with rfl | ⟨-, rfl⟩
    · rfl
    · rfl
  unfold connectionFor at connects
  split at connects
  · simp only [Option.some.injEq, Prod.mk.injEq] at connects
    rcases connects with ⟨rfl, rfl⟩
    exact trivial
  · rename_i head dispatched
    simp only [Option.some.injEq, Prod.mk.injEq] at connects
    rcases connects with ⟨rfl, rfl⟩
    exact (sameMethod head (by rw [dispatched]; rfl)).trans isMethod.symm
  · rename_i head dispatched
    simp only [Option.some.injEq, Prod.mk.injEq] at connects
    rcases connects with ⟨rfl, rfl⟩
    exact (sameMethod head (by rw [dispatched]; rfl)).trans isMethod.symm
  · simp at connects

/-- A request goes out on a stream that is at a message boundary, or new. -/
theorem Reading.kept_requestTo (reading : Reading stream view relay) {head : HttpRequestHead}
    {codec : Codec} {bytes : Bytes} {headers : HeaderList} {body : Option MessageBody}
    {retryAllowed : Bool} (isAfter : after.out = relay.out ++
      [.requestTo stream' head, headAction (.backend stream') codec bytes headers])
    (waits : after.pending = relay.pending ++
      [.writeHead (.backend stream') codec body (.requestWritten retryAllowed)])
    (isBackend : after.backend = some stream') (isHead : after.pendingHead = some head)
    (isMethod : head.method = after.requestMethod)
    (ready : stream' = stream → (relay.seenOn stream view).asked = true →
      (relay.seenOn stream view).AtBoundary) : Kept stream view after := by
  have ignored := (streamless_headAction (.backend stream') codec bytes headers).ignored stream
    ((relay.seenOn stream view).watch stream (.requestTo stream' head))
  constructor
  · rw [isAfter]
    refine always_append.mpr ⟨reading.passes, ?_, ignored.1⟩
    exact fun same _ => ready same
  · intro op opMem
    rw [waits, reading.idle, List.nil_append, List.mem_singleton] at opMem
    subst opMem
    have isSeen : after.seenOn stream view =
        (relay.seenOn stream view).watch stream (.requestTo stream' head) := by
      rw [seenOn, isAfter, List.foldl_append]
      exact ignored.2
    rw [isSeen]
    refine ⟨?_, ?_⟩
    · intro head' isHead'
      rw [isHead, Option.some.injEq] at isHead'
      subst isHead'
      exact isMethod
    · intro same
      rw [isBackend, Option.some.injEq] at same
      simp [StreamView.watch, same, isMethod]

theorem expects_of_more {completion : Completion} {buf : Bytes}
    (progress : responseProgress stream' op completion = some (.more buf))
    (awaits : relay.Awaits op) (expects : relay.Expects stream view op) :
    relay.Expects stream (view.arrived stream op completion)
      (.readHead (.backend stream') buf) := by
  intro isBackend
  have same := (responseProgress_awaits progress awaits).2.1.eq isBackend
  subst same
  rcases op_of_responseProgress progress with ⟨before, rfl⟩ | rfl
  · rcases expects isBackend with ⟨isMethod, isBuf⟩
    cases completion with
    | read result examined =>
      simp only [responseProgress, if_true, Option.some.injEq] at progress
      rcases onBlockRead_eq_more progress with ⟨data, rfl, rfl⟩
      rw [StreamView.arrived, seen_of_read rfl, ← isBuf]
      exact ⟨isMethod, rfl⟩
    | _ => simp [responseProgress] at progress
  · cases completion with
    | headers result => cases result <;> simp [responseProgress] at progress
    | _ => simp [responseProgress] at progress

theorem Serves.codec_eq (serves : relay.Serves stream) (overTcp : stream.protocol = .TCP) :
    relay.backendCodec = .h1 := by
  rw [serves.2.1, codecFor, ← serves.2.2, overTcp]
  rfl

theorem exchanges_of_response {completion : Completion} {parsed : ParsedResponse}
    (progress : responseProgress stream' op completion = some (.complete parsed))
    (awaits : relay.Awaits op) (overTcp : stream.protocol = .TCP)
    (reads : relay.ReadsResponses (.complete op completion))
    (expects : relay.Expects stream view op)
    (plain : ¬(relay.requestIsUpgrade = true ∧ parsed.head.statusCode = 101)) :
    relay.Exchanges stream (view.arrived stream op completion)
      ((relay.clientBody stream' parsed).map MessageBody.source)
      (.responseWritten parsed.keepAlive) := by
  intro keepAlive isBackend
  have same := (responseProgress_awaits progress awaits).2.1.eq isBackend
  subst same
  have whole := (reads (by simp [isBackend])).2
  rcases op_of_responseProgress progress with ⟨buf, rfl⟩ | rfl
  · rcases expects isBackend with ⟨isMethod, isBuf⟩
    rw [readsWholeResponse, progress, Option.all_some] at whole
    cases completion with
    | read result examined =>
      simp only [responseProgress, if_true, Option.some.injEq] at progress
      rcases onBlockRead_eq_complete progress with ⟨data, _, _, rfl, -, -⟩
      rw [StreamView.arrived, seen_of_read rfl]
      rw [headerText, ← isBuf] at whole
      apply reached_of_readsResponse
      · exact whole
      · exact isMethod
      · exact plain
      · exact keepAlive
    | _ => simp [responseProgress] at progress
  · rcases awaits with ⟨-, isCodec, serves⟩
    simp [serves.codec_eq overTcp] at isCodec

theorem streamless_messageDone (dest : Peer) (ec : Option ErrorCode) :
    Streamless [.messageDone dest ec] := by
  simp [Streamless, Action.streams]

theorem Reading.served (reading : Reading stream view relay) (parsed : ParsedRequest)
    (idleTimer : IdleTimer) : Reading stream view (relay.served parsed idleTimer) := by
  refine reading.more (List.append_assoc _ _ _) ?_ rfl
  exact (streamless_phaseChange relay .forward).append (by simp [Streamless, Action.streams])

theorem Handled.kept {completion : Completion} (handled : relay.Handled op completion after)
    (idle : relay.pending = []) (isOut : relay.out = arrivals op completion)
    (awaits : relay.Awaits op) (fits : relay.Fits op completion = true)
    (overTcp : stream.protocol = .TCP) (reads : relay.ReadsResponses (.complete op completion))
    (expects : relay.Expects stream view op)
    (ready : stream ∈ completion.streams → view.asked = true → view.AtBoundary) :
    Kept stream view after := by
  have reading : Reading stream view relay := by
    refine ⟨idle, ?_⟩
    rw [isOut]
    exact always_arrivals_check op completion
  have isSeen : relay.seenOn stream view = view.arrived stream op completion := by
    rw [seenOn, isOut]
    rfl
  cases handled with
  | requestMore progress =>
    refine reading.kept_await rfl ?_ rfl trivial
    simp [Streamless, Action.streams]
  | requestFails ec progress => exact kept_teardown reading.kept
  | @requestForwarded _ _ parsed progress idleTimer target next connects =>
    have served := reading.served parsed idleTimer
    constructor
    · exact always_append.mpr ⟨served.passes, trivial, trivial⟩
    · intro op' opMem
      have isOp : op' = .connect target next := by
        simpa [connect, await, emit, RelaySession.served, idle] using opMem
      subst isOp
      exact expects_connectionFor connects rfl
  | @requestRejected _ _ parsed progress idleTimer status message rejects =>
    exact (reading.served parsed idleTimer).kept_writeError _ _
  | connectFails target next ec message => exact reading.kept_writeError _ _
  | requestSent target head body stream' endpoint fromPool idleTimer =>
    apply reading.kept_requestTo
    · rfl
    · rfl
    · rfl
    · rfl
    · exact expects
    · rintro rfl
      rw [isSeen]
      exact ready (by simp [Completion.streams])
  | tunnelAccepted target stream' endpoint fromPool =>
    apply Reading.kept_writeResponse
    · exact ⟨reading.idle, reading.passes⟩
    · exact trivial
  | requestResent target stream' endpoint fromPool head kept =>
    apply reading.kept_requestTo
    · rfl
    · rfl
    · rfl
    · exact kept
    · exact expects head kept
    · rintro rfl
      rw [isSeen]
      exact ready (by simp [Completion.streams])
  | bodyAsks advances asks =>
    refine reading.kept_await rfl ?_ rfl ?_
    · simp [Streamless, Action.streams]
    · rw [isSeen]
      apply Exchanges.update _ rfl rfl id
      have exchanges := advances.exchanges_of_expects expects
      exact (advances.exchanges awaits fits overTcp reads exchanges).1
  | pieceSent advances delivers nonempty =>
    refine reading.kept_await rfl ?_ rfl ?_
    · simp [Streamless, Action.streams]
    · rw [isSeen]
      apply Exchanges.update _ rfl rfl id
      have exchanges := advances.exchanges_of_expects expects
      exact (advances.exchanges awaits fits overTcp reads exchanges).1
  | finishes ends =>
    refine reading.kept_await (List.append_assoc _ _ _) ?_ rfl ?_
    · exact ends.streamless.append (by simp [Streamless, Action.streams])
    · rw [isSeen]
      exact Exchanges.update (ends.exchanges awaits fits overTcp reads expects) rfl rfl id
  | @messageEnds _ _ dest _ ec _ _ ends resumes =>
    have shown := ends.streamless.append (streamless_messageDone dest ec)
    apply resumes.kept
    · exact reading.more (List.append_assoc _ _ _) shown rfl
    · rw [seenOn_of_streamless (List.append_assoc _ _ _) shown, isSeen]
      exact Exchanges.update (ends.exchanges awaits fits overTcp reads expects) rfl rfl id
  | finished dest next ec resumes =>
    have shown := streamless_messageDone dest ec
    apply resumes.kept
    · exact reading.more rfl shown rfl
    · rw [seenOn_of_streamless rfl shown, isSeen]
      exact Exchanges.update expects rfl rfl id
  | responseMore progress =>
    refine reading.kept_await rfl ?_ rfl ?_
    · simp [Streamless, Action.streams]
    · rw [isSeen]
      exact (expects_of_more progress awaits expects).update rfl rfl id
  | responseFails ec progress =>
    apply Reading.kept_writeError
    apply reading.more
    · rfl
    · exact streamless_closeActions relay
    · rfl
  | upgradeAnswered progress idleTimer upgrades =>
    apply Reading.kept_writeResponse
    · refine reading.more rfl ?_ rfl
      simp [Streamless, Action.streams]
    · exact trivial
  | @responseAnswered _ _ stream' parsed progress idleTimer plain =>
    have shown : Streamless [.response stream' parsed] := by simp [Streamless, Action.streams]
    apply Reading.kept_writeResponse
    · exact reading.more rfl shown rfl
    · rw [seenOn_of_streamless rfl shown, isSeen]
      apply Exchanges.update _ rfl rfl id
      exact exchanges_of_response progress awaits overTcp reads expects plain
  | drainReads data examined idleTimer running =>
    refine reading.kept_await rfl ?_ rfl trivial
    simp [Streamless, Action.streams]
  | drainEnds completion => exact kept_teardown reading.kept

theorem Outcome.kept {input : Input} (outcome : relay.Outcome input after)
    (overTcp : stream.protocol = .TCP) (reads : relay.ReadsResponses input)
    (expects : ∀ op ∈ relay.pending, relay.Expects stream view op)
    (ready : stream ∈ input.streams → view.asked = true → view.AtBoundary) :
    Kept stream view after := by
  cases outcome with
  | @exchange op completion _ waits awaits fits handled =>
    apply handled.kept rfl rfl (awaits.update _ _ _ _) fits overTcp reads _ ready
    exact (expects op (by simp [waits])).update rfl rfl id
  | @tunnel op left completion src dst _ _ bridging holds directions carries outstanding fits
      carried =>
      have free : ∀ op' : Op, ∀ src' dst', op'.Carries src' dst' → ∀ (relay : RelaySession) view,
          relay.Expects stream view op' := by
        rintro op' src' dst' (rfl | rfl) relay view <;> exact trivial
      have leftFree : ∀ (relay : RelaySession) view, relay.Expects stream view left := by
        rcases directions with ⟨-, -, carries'⟩ | ⟨-, -, carries'⟩
        · exact free left _ _ carries'
        · exact free left _ _ carries'
      have passes : Always (StreamView.watch stream) (StreamCheck stream) view
          (arrivals op completion) := always_arrivals_check op completion
      cases carried with
      | forwards data examined nonempty idleTimer running =>
        refine ⟨always_append.mpr ⟨passes, trivial, trivial⟩, ?_⟩
        simp only [List.cons_append, List.nil_append, List.mem_cons, List.not_mem_nil, or_false]
        rintro op' (rfl | rfl)
        · exact leftFree _ _
        · exact trivial
      | reads idleTimer running =>
        refine ⟨always_append.mpr ⟨passes, trivial, trivial⟩, ?_⟩
        simp only [List.cons_append, List.nil_append, List.mem_cons, List.not_mem_nil, or_false]
        rintro op' (rfl | rfl)
        · exact leftFree _ _
        · exact trivial
      | ends =>
        apply kept_teardown
        refine ⟨passes, ?_⟩
        simpa using leftFree _ _
  | ignored done carries outstanding fits => exact ⟨always_arrivals_check _ _, by simp⟩
  | expired kick armed => exact ⟨trivial, fun op opMem => (expects op opMem).update rfl rfl id⟩
  | timedOut kick expired queued =>
    apply kept_teardown
    exact ⟨⟨trivial, trivial⟩, fun op opMem => (expects op opMem).update rfl rfl id⟩
  | shutsDown running waiting =>
    exact ⟨⟨trivial, trivial⟩, fun op opMem => (expects op opMem).update rfl rfl id⟩
  | drains running busy => exact ⟨trivial, fun op opMem => (expects op opMem).update rfl rfl id⟩
  | alreadyClosed done => exact ⟨trivial, fun op opMem => (expects op opMem).update rfl rfl id⟩

theorem expects_start (stream : TransportStream) (clientCodec : Codec) (rules : List Router.Rule)
    (idleTimeout : ℕ) :
    ∀ op ∈ (start clientCodec rules idleTimeout).pending,
      (start clientCodec rules idleTimeout).Expects stream {} op := by
  rcases requestPhase_eq { clientCodec, rules, idleTimeout } with ⟨idleTimer, entered⟩
  rw [start, entered]
  simp only [List.nil_append, List.mem_singleton, forall_eq]
  cases clientCodec <;> exact trivial

end Callbacks

end RelaySession

end ReverseProxy
