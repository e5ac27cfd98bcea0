import ReverseProxy.Relay.ResponseCallbacks

/-!
# Every exchange is answered with one response

The steps of the messages that a relay writes, one by one, and the runs that they make: as
long as the responses of the backends fit the framing that they are relayed with, each
exchange is answered with exactly one response, which the client reads as a whole.
-/

namespace ReverseProxy

open Machine Text H1Codec

namespace RelaySession

section Callbacks

variable {relay after : RelaySession} {view : ResponseView}

/-! ## Messages -/

/-- What arrives is only counted. -/
theorem exists_arrived (view : ResponseView) (op : Op) (completion : Completion) :
    ∃ arrived, (arrivals op completion).foldl ResponseView.watch view = { view with arrived } := by
  unfold arrivals
  split
  · split
    · rename_i peer capacity reads
      cases peer with
      | client => exact ⟨view.arrived, rfl⟩
      | backend stream => exact ⟨_, rfl⟩
    · exact ⟨view.arrived, rfl⟩
  · exact ⟨view.arrived, rfl⟩

theorem always_arrived (view : ResponseView) (op : Op) (completion : Completion) :
    Always ResponseView.watch ResponseCheck view (arrivals op completion) := by
  unfold arrivals
  split
  · split <;> simp [ResponseCheck]
  · exact trivial

variable {next : WriteThen}

/-- The response that has been written is a message of its own. -/
theorem Answers.messageDone (answers : Answers relay.Closing view next none) :
    ResponseCheck view (.messageDone .client none) ∧
      (next.answers = true → relay.Replied (view.watch (.messageDone .client none))) := by
  rcases answers with ⟨-, status, fields, taken, framed, final, last⟩
  constructor
  · refine ⟨status, _, ⟨fields, view.delivered, taken, rfl, ?_⟩, final⟩
    rw [Rfc9112.Framing.delimits_self_iff]
    exact framed
  · intro isAnswer
    rcases last isAnswer with ⟨notInterim, closing⟩
    have notSwitching : status ≠ 101 := by
      rintro rfl
      simp at notInterim
    by_cases untilClose : Rfc9112.responseFraming view.method status fields = .untilClose
    · right
      simp [ResponseView.watch, ResponseView.closes, taken, untilClose, closing untilClose]
    · left
      simp [ResponseView.watch, ResponseView.closes, taken, untilClose, notSwitching]

theorem asyncReadSome_ne_error (source : BodySource) (capacity : ℕ) (ec : ErrorCode) :
    (source.asyncReadSome capacity).2 ≠ .deliver (.error ec) := by
  cases source with
  | stream remaining =>
    simp only [BodySource.asyncReadSome]
    split <;> simp
  | buffer data readPos => simp [BodySource.asyncReadSome]
  | streamEof => simp [BodySource.asyncReadSome]
  | chunked source =>
    simp only [BodySource.asyncReadSome, ChunkedBodySource.asyncReadSome]
    split
    · simp
    · split <;> simp [ChunkedBodySource.readLine, ChunkedBodySource.readChunkPayload]

variable {dest : Peer} {stream : TransportStream} {ec : Option ErrorCode}

section Messages

variable {op : Op} {completion : Completion} {codec : Codec} {body : MessageBody}
  {shown : List Action}
  {next : WriteThen} {bodyStep : BodySource × BodyStep}

/-- A source that is asked for more, or that has read more, is of the same kind. -/
theorem Advances.stream_of_stream {remaining : ℕ}
    (advances : Advances op completion dest codec body next bodyStep)
    (isStream : bodyStep.1 = .stream remaining) : ∃ before, body.source = .stream before := by
  cases advances with
  | headWritten | pieceWritten =>
    cases source : body.source with
    | stream before => exact ⟨before, rfl⟩
    | _ => simp [source, BodySource.asyncReadSome] at isStream
  | sourceRead _ _ _ capacity _ result examined =>
    cases source : body.source with
    | stream before => exact ⟨before, rfl⟩
    | streamEof =>
      rw [source] at isStream
      simp only [BodySource.onRead] at isStream
      split at isStream <;> simp at isStream
    | _ => simp [source, BodySource.onRead] at isStream

theorem Advances.wired (advances : Advances op completion dest codec body next bodyStep)
    (wired : Wired (some body)) : Wired (some { body with source := bodyStep.1 }) := by
  rintro part ⟨⟩ remaining isStream
  rcases advances.stream_of_stream isStream with ⟨before, wasStream⟩
  exact wired body rfl before wasStream

theorem Advances.wired_body (advances : Advances op completion .client codec body next bodyStep)
    (frames : relay.Frames view op) : Wired (some body) := by
  cases advances with
  | headWritten | pieceWritten => exact frames.2
  | sourceRead => exact frames.2.1

theorem Advances.unbuffered {capacity : ℕ}
    (advances : Advances op completion dest codec body next bodyStep)
    (asks : bodyStep.2 = .read capacity) : ∀ data readPos, bodyStep.1 ≠ .buffer data readPos := by
  intro data readPos isBuffer
  cases advances with
  | headWritten | pieceWritten =>
    cases source : body.source <;> simp_all [BodySource.asyncReadSome]
    split at isBuffer <;> simp at isBuffer
  | sourceRead _ _ _ _ _ result examined =>
    cases source : body.source with
    | buffer buffered before => simp [source, BodySource.onRead] at asks
    | stream before =>
      rw [source] at isBuffer
      cases result <;> simp [BodySource.onRead] at isBuffer
    | streamEof =>
      rw [source] at isBuffer
      simp only [BodySource.onRead] at isBuffer
      split at isBuffer <;> simp at isBuffer
    | chunked chunks => simp [source, BodySource.onRead] at isBuffer

/-- A read that a body source makes for the client comes from the backend. -/
theorem backend_of_readBody {capacity : ℕ}
    (awaits : relay.Awaits (.readBody .client codec body capacity next))
    (unbuffered : ∀ data readPos, body.source ≠ .buffer data readPos) :
    ∃ stream, body.peer = .backend stream ∧ ∃ keepAlive, next = .responseWritten keepAlive := by
  cases next with
  | requestWritten retryAllowed =>
    rcases awaits with ⟨stream, -, isDest, -⟩
    simp at isDest
  | responseWritten keepAlive =>
    rcases awaits with ⟨stream, -, -, -, -, fromBackend⟩
    exact ⟨stream, fromBackend body rfl, keepAlive, rfl⟩
  | upgraded =>
    rcases awaits with ⟨-, -, -, -, -, bodiless⟩
    simp at bodiless
  | tunnelOpened =>
    rcases awaits with ⟨-, -, -, -, -, bodiless⟩
    simp at bodiless
  | errorWritten =>
    rcases awaits with ⟨-, -, -, -, buffered⟩
    rcases buffered body rfl with ⟨data, readPos, isBuffer⟩
    exact absurd isBuffer (unbuffered data readPos)

theorem Advances.answers
    (advances : Advances op completion .client codec body next bodyStep)
    (frames : relay.Frames view op) (awaits : relay.Awaits op)
    (fits : relay.Fits op completion = true)
    (asPromised : endsStream op completion = true →
      view.promised.all (· = view.arrived) = true) :
    match bodyStep.2 with
    | .read _ =>
      Answers relay.Closing ((arrivals op completion).foldl ResponseView.watch view) next
        (some bodyStep.1)
    | .deliver (.ok []) =>
      Answers relay.Closing ((arrivals op completion).foldl ResponseView.watch view) next none
    | .deliver (.ok data) =>
      Answers relay.Closing
        (((arrivals op completion).foldl ResponseView.watch view).sent data) next
        (some bodyStep.1)
    | .deliver (.error _) => True := by
  cases advances with
  | headWritten => exact Answers.asyncReadSome frames.1
  | pieceWritten => exact Answers.asyncReadSome frames.1
  | sourceRead _ _ _ capacity _ result examined =>
    rcases frames with ⟨answers, wired, unbuffered⟩
    rcases backend_of_readBody awaits unbuffered with ⟨stream, isPeer, keepAlive, rfl⟩
    cases result with
    | ok data =>
      have sized : ∀ remaining, body.source = .stream remaining → data ≠ [] := by
        intro remaining isStream
        rcases wired body rfl remaining isStream with ⟨stream', isPeer', overTcp⟩
        have nonempty := fits
        simp only [Fits, Op.reads, isPeer', transport, overTcp, decide_eq_true_eq] at nonempty
        exact nonempty.2 trivial
      have ends : body.source = .streamEof → data = [] →
          view.promised.all (· = view.arrived) = true := by
        intro isEof nothing
        apply asPromised
        rcases body with ⟨peer, source⟩
        simp only at isEof
        subst isEof nothing
        simp [endsStream]
      simp only [arrivals, Op.reads, isPeer, List.foldl_cons, List.foldl_nil,
        ResponseView.watch]
      exact answers.onRead examined sized unbuffered ends
    | error ec =>
      have ends : body.source = .streamEof → ec = .eof →
          view.promised.all (· = view.arrived) = true := by
        intro isEof atEnd
        apply asPromised
        rcases body with ⟨peer, source⟩
        simp only at isEof
        subst isEof atEnd
        simp [endsStream]
      have goes := answers.onError examined ec ends
      simp only [arrivals, List.foldl_nil]
      split
      · simp_all
      · simp_all
      · simp_all
      · exact trivial

/-- A message fails where an operation or the body source does. -/
theorem Ends.failedMessage {ec : ErrorCode}
    (ends : Ends op completion dest .h1 next (some ec) shown) :
    failedMessage op completion = some next := by
  cases ends with
  | headFails => rfl
  | pieceFails => rfl
  | bodyFails advances fails =>
    cases advances with
    | headWritten | pieceWritten => exact absurd fails (asyncReadSome_ne_error _ _ _)
    | sourceRead => simp [RelaySession.failedMessage, fails]

/-- A response that ends without an error has been written whole. -/
theorem Ends.answers (ends : Ends op completion .client codec next none shown)
    (frames : relay.Frames view op) (awaits : relay.Awaits op)
    (fits : relay.Fits op completion = true)
    (asPromised : endsStream op completion = true → view.promised.all (· = view.arrived) = true) :
    Answers relay.Closing ((arrivals op completion ++ shown).foldl ResponseView.watch view) next
      none := by
  rw [List.foldl_append]
  cases ends with
  | headIsAll => exact frames.1
  | bodyEnds advances exhausted =>
    have goes := advances.answers frames awaits fits asPromised
    rw [exhausted] at goes
    exact goes

/-- What a message shows of its end is nothing to the client. -/
theorem Ends.ignored (ends : Ends op completion dest codec next ec shown) :
    Ignored ResponseView.watch ResponseCheck shown := by
  intro view
  cases ends <;> simp [ResponseCheck, ResponseView.watch]

theorem Advances.unanswered
    (advances : Advances op completion (.backend stream) codec body next bodyStep)
    (frames : relay.Frames view op) : relay.Unanswered view := by
  cases advances <;> exact frames

theorem Ends.unanswered (ends : Ends op completion (.backend stream) codec next ec shown)
    (frames : relay.Frames view op) : relay.Unanswered view := by
  cases ends with
  | headFails | headIsAll | pieceFails => exact frames
  | bodyFails advances | bodyEnds advances => exact advances.unanswered frames

end Messages

/-- A message goes to the client exactly when it is not a request. -/
theorem Writing.dest_cases {codec : Codec} {body : Option MessageBody}
    (writing : relay.Writing dest codec body next) :
    dest = .client ∧ codec = relay.clientCodec ∧ (∀ r, next ≠ .requestWritten r) ∨
      ∃ stream r, dest = .backend stream ∧ next = .requestWritten r := by
  cases next with
  | requestWritten r =>
    rcases writing with ⟨stream, -, isDest, -⟩
    exact .inr ⟨stream, r, isDest, rfl⟩
  | responseWritten keepAlive =>
    rcases writing with ⟨-, -, isDest, isCodec, -⟩
    exact .inl ⟨isDest, isCodec, nofun⟩
  | upgraded =>
    rcases writing with ⟨-, -, isDest, isCodec, -⟩
    exact .inl ⟨isDest, isCodec, nofun⟩
  | tunnelOpened =>
    rcases writing with ⟨-, -, isDest, isCodec, -⟩
    exact .inl ⟨isDest, isCodec, nofun⟩
  | errorWritten =>
    rcases writing with ⟨-, isDest, isCodec, -⟩
    exact .inl ⟨isDest, isCodec, nofun⟩

theorem Answering.served (answering : Answering view relay)
    (waiting : (relay.shown view).stage = .waiting) (parsed : ParsedRequest)
    (idleTimer : IdleTimer) :
    Answering view (relay.served parsed idleTimer) ∧
      (relay.served parsed idleTimer).Unanswered ((relay.served parsed idleTimer).shown view) := by
  have ignored : Ignored ResponseView.watch ResponseCheck (relay.phaseChange .forward) :=
    ignored_phaseChange relay (by simp)
  have isShown : (relay.served parsed idleTimer).shown view =
      (relay.shown view).watch (.request parsed) := by
    simp only [shown, RelaySession.served, List.foldl_append, (ignored _).2, List.foldl_cons,
      List.foldl_nil]
  refine ⟨⟨answering.idle, answering.overTcp, ?_, ?_⟩, ?_⟩
  · simp only [RelaySession.served, always_append]
    refine ⟨⟨answering.passes, (ignored _).1⟩, ?_, trivial⟩
    rw [List.foldl_append, (ignored _).2]
    exact waiting
  · rw [isShown]
    exact answering.doneShut
  · rw [isShown]
    exact ⟨rfl, rfl, rfl, rfl⟩

theorem Answering.answered (answering : Answering view relay) (stream : TransportStream)
    (parsed : ParsedResponse) (idleTimer : IdleTimer) :
    Answering view (relay.answered stream parsed idleTimer) ∧
      (relay.answered stream parsed idleTimer).shown view =
        (relay.shown view).watch (.response stream parsed) := by
  have isShown : (relay.answered stream parsed idleTimer).shown view =
      (relay.shown view).watch (.response stream parsed) := by
    simp only [shown, RelaySession.answered, List.foldl_append, List.foldl_cons, List.foldl_nil]
  refine ⟨⟨answering.idle, answering.overTcp, ?_, ?_⟩, isShown⟩
  · exact always_append.mpr ⟨answering.passes, trivial, trivial⟩
  · rw [isShown]
    exact answering.doneShut

variable {completion : Completion}

theorem waiting_of_request {op : Op} {progress : Progress ParsedRequest}
    (requesting : requestProgress op completion = some progress) (frames : relay.Frames view op) :
    view.stage = .waiting := by
  unfold requestProgress at requesting
  split at requesting
  · exact frames
  · exact frames
  · exact frames
  · simp at requesting

theorem unanswered_of_response {op : Op} {progress : Progress ParsedResponse}
    (responding : responseProgress stream op completion = some progress)
    (frames : relay.Frames view op) : relay.Unanswered view := by
  unfold responseProgress at responding
  split at responding
  · exact frames
  · exact frames
  · exact frames
  · simp at responding

theorem connect_of_tunnel {rules : List Router.Rule} {head : HttpRequestHead}
    {target : BackendEndpoint} (tunnels : dispatch rules head = .tunnel target) :
    head.method = ascii "CONNECT" := by
  unfold dispatch at tunnels
  split at tunnels
  · assumption
  · split at tunnels
    · unfold handleForward at tunnels
      split at tunnels
      · simp at tunnels
      · split at tunnels
        · simp at tunnels
        · split at tunnels <;> simp at tunnels
    · split at tunnels <;> simp at tunnels

theorem failure_of_reject {rules : List Router.Rule} {head : HttpRequestHead} {status : HttpStatus}
    {message : Bytes} (rejects : dispatch rules head = .reject status message) : status ≠ .ok := by
  rintro rfl
  unfold dispatch at rejects
  split at rejects
  · unfold handleConnect at rejects
    split at rejects
    · simp at rejects
    · split_ifs at rejects <;> simp at rejects
  · split at rejects
    · unfold handleForward at rejects
      split at rejects
      · simp at rejects
      · split at rejects
        · simp at rejects
        · split at rejects <;> simp at rejects
    · split at rejects <;> simp at rejects

/-- The relayed head announces what is relayed with it. -/
theorem answers_of_framesResponse {parsed : ParsedResponse} (unanswered : relay.Unanswered view)
    (frames : relay.framesResponse stream parsed = true) :
    (relay.upgrades parsed = true →
        Answers relay.Closing
          { view.watch (.response stream parsed) with
            written := responseBytes (relay.clientHead parsed.head) } .upgraded none) ∧
      (relay.upgrades parsed = false → ∀ keepAlive,
        Answers relay.Closing
          { view.watch (.response stream parsed) with
            written := responseBytes (relay.clientHead parsed.head) } (.responseWritten keepAlive)
          ((relay.clientBody stream parsed).map MessageBody.source)) := by
  rcases unanswered with ⟨isAnswering, -, undelivered, isMethod⟩
  unfold framesResponse at frames
  split at frames
  · simp at frames
  · rename_i status framing isAnnounced
    rcases announced_eq_some isAnnounced with ⟨fields, taken, rfl⟩
    rw [← isMethod] at frames
    have head : Rfc9112.responseHead? (responseBytes (relay.clientHead parsed.head)) =
        some (status, fields, view.delivered) := by
      rw [taken, undelivered]
    constructor
    · intro isUpgrade
      simp only [isUpgrade, if_true, Bool.and_eq_true, decide_eq_true_eq] at frames
      refine ⟨isAnswering, status, fields, head, ?_, ?_, nofun⟩
      · exact owes_of_framesBody frames.2 undelivered rfl
      · exact fun interim => frames.1.resolve_left (absurd interim)
    · intro notUpgrade keepAlive
      simp only [notUpgrade, Bool.false_eq_true, if_false, Bool.and_eq_true, decide_eq_true_eq,
        Bool.or_eq_true, ne_eq] at frames
      rcases frames with ⟨⟨notInterim, frames⟩, closing⟩
      refine ⟨isAnswering, status, fields, head, ?_, ?_, ?_⟩
      · exact owes_of_framesBody frames undelivered rfl
      · exact fun interim => absurd interim notInterim
      · intro _
        exact ⟨notInterim, fun untilClose => closing.resolve_left (absurd untilClose)⟩

/-- The 200 that opens a tunnel has no body in answer to CONNECT. -/
theorem answers_startTunnel {closing : Prop} (unanswered : relay.Unanswered view)
    (isConnect : relay.requestMethod = ascii "CONNECT") :
    Answers closing
      { view with
        written := responseBytes { statusCode := 200, reason := ascii "Connection Established" } }
      .tunnelOpened none := by
  rcases unanswered with ⟨isAnswering, -, undelivered, isMethod⟩
  have taken : Rfc9112.responseHead? (responseBytes
      { statusCode := 200, reason := ascii "Connection Established" }) = some (200, [], []) := by
    decide +kernel
  have framing : Rfc9112.responseFraming (ascii "CONNECT") 200 [] = .length 0 := by decide +kernel
  refine ⟨isAnswering, 200, [], ?_, .inr ?_, by simp, nofun⟩
  · rw [taken, undelivered]
  · simp [isMethod, isConnect, framing, ResponseView.Owes, undelivered]

theorem wired_clientBody {op : Op} {parsed : ParsedResponse}
    (progress : responseProgress stream op completion = some (.complete parsed))
    (awaits : relay.Awaits op) : Wired (relay.clientBody stream parsed) := by
  intro part partMem remaining isStream
  unfold clientBody at partMem
  split at partMem
  · simp at partMem
  simp only [Option.mem_def, Option.map_eq_some_iff] at partMem
  rcases partMem with ⟨source, isBody, rfl⟩
  refine ⟨stream, rfl, ?_⟩
  unfold responseProgress at progress
  split at progress
  · rw [Option.ite_none_right_eq_some] at progress
    rcases progress with ⟨rfl, -⟩
    rcases awaits with ⟨-, isCodec, -, codec, protocol⟩
    rw [protocol]
    cases isProtocol : relay.backendEndpoint.protocol with
    | TCP => rfl
    | QUIC => simp [isCodec, codecFor, isProtocol] at codec
  · rw [Option.ite_none_right_eq_some, Option.some.injEq, Progress.complete.injEq] at progress
    rcases progress with ⟨-, rfl⟩
    simp only [H3Codec.asyncParseResponse, Option.some.injEq] at isBody
    subst isBody
    simp at isStream
  · simp at progress
  · simp at progress

theorem method_of_rejected {op : Op} {parsed : ParsedRequest} {status : HttpStatus}
    {message : Bytes} (progress : requestProgress op completion = some (.complete parsed))
    (rejects : dispatch relay.rules parsed.head = .reject status message)
    (notHead : relay.answersHead op completion = false) : parsed.head.method ≠ ascii "HEAD" := by
  have isParse : (∃ buf, op = .readHead .client buf) ∨ op = .takeHeaders .client := by
    unfold requestProgress at progress
    split at progress <;> simp_all
  rcases isParse with ⟨buf, rfl⟩ | rfl
  · simpa [answersHead, progress, rejects] using notHead
  · simpa [answersHead, progress, rejects] using notHead

theorem method_of_unparsed {op : Op} {ec : ErrorCode}
    (progress : responseProgress stream op completion = some (.failed ec))
    (notHead : relay.answersHead op completion = false) : relay.requestMethod ≠ ascii "HEAD" := by
  rcases op_of_responseProgress progress with ⟨buf, rfl⟩ | rfl
  · simpa [answersHead, progress] using notHead
  · simpa [answersHead, progress] using notHead

theorem framesResponse_of_answer {op : Op} {parsed : ParsedResponse}
    (progress : responseProgress stream op completion = some (.complete parsed))
    (framesAnswer : relay.framesAnswer op completion = true) :
    relay.framesResponse stream parsed = true := by
  rcases op_of_responseProgress progress with ⟨buf, rfl⟩ | rfl
  · simpa [RelaySession.framesAnswer, progress] using framesAnswer
  · simpa [RelaySession.framesAnswer, progress] using framesAnswer

/-- `write_error` is not the answer to HEAD. -/
theorem method_of_failed {op : Op} {retryAllowed : Bool}
    (failed : failedMessage op completion = some (.requestWritten retryAllowed))
    (notHead : relay.answersHead op completion = false)
    (final : ¬(retryAllowed = true ∧ relay.backendFromPool = true ∧ relay.pendingBody = none)) :
    relay.requestMethod ≠ ascii "HEAD" := by
  intro isHead
  cases op with
  | writeHead | readBody | writeBody | finish =>
    simp only [answersHead, failed, isHead] at notHead
    simp_all
  | _ => simp [failedMessage] at failed

theorem messageDone_ignored (stream : TransportStream) (ec : Option ErrorCode) :
    Ignored ResponseView.watch ResponseCheck [.messageDone (.backend stream) ec] := by
  simp [Ignored, ResponseCheck, ResponseView.watch]

/-! ## Completions -/

/-- What holds when the callback of an operation starts. -/
structure Handling (view : ResponseView) (relay : RelaySession) (op : Op)
    (completion : Completion) : Prop where
  answering : Answering view relay
  awaits : relay.Awaits op
  fits : relay.Fits op completion = true
  frames : relay.Frames view op
  framesStep : FramesStep (relay, view) (.complete op completion)
  arrived : relay.out = arrivals op completion

section Handling

variable {op : Op}

theorem Handling.start (idle : relay.pending = []) (arrived : relay.out = arrivals op completion)
    (awaits : relay.Awaits op) (fits : relay.Fits op completion = true)
    (overTcp : relay.clientCodec = .h1) (doneShut : relay.done = true → view.shut = true)
    (frames : relay.Frames view op) (framesStep : FramesStep (relay, view) (.complete op completion)) :
    Handling view relay op completion := by
  rcases exists_arrived view op completion with ⟨count, counted⟩
  refine ⟨⟨idle, overTcp, ?_, ?_⟩, awaits, fits, frames, framesStep, arrived⟩
  · rw [arrived]
    exact always_arrived view op completion
  · rw [shown, arrived, counted]
    exact doneShut

theorem Handling.shown_eq (handling : Handling view relay op completion) :
    relay.shown view = (arrivals op completion).foldl ResponseView.watch view := by
  rw [shown, handling.arrived]

theorem Handling.unanswered (handling : Handling view relay op completion)
    (clean : relay.Unanswered view) : relay.Unanswered (relay.shown view) := by
  rcases exists_arrived view op completion with ⟨count, counted⟩
  rw [handling.shown_eq, counted]
  exact clean

theorem Handling.waiting (handling : Handling view relay op completion)
    {progress : Progress ParsedRequest}
    (requesting : requestProgress op completion = some progress) :
    (relay.shown view).stage = .waiting := by
  have waiting := waiting_of_request requesting handling.frames
  rcases exists_arrived view op completion with ⟨count, counted⟩
  rw [handling.shown_eq, counted]
  exact waiting

theorem Handling.unanswered_of_progress (handling : Handling view relay op completion)
    {progress : Progress ParsedResponse}
    (responding : responseProgress stream op completion = some progress) :
    relay.Unanswered (relay.shown view) :=
  handling.unanswered (unanswered_of_response responding handling.frames)

/-- The writer of a response calls its callback. -/
theorem Handling.messageDone (handling : Handling view relay op completion) {ending : List Action}
    (ends : Ends op completion .client .h1 next ec ending) :
    Answering view { relay with out := relay.out ++ ending ++ [.messageDone .client ec] } ∧
      (next.answers = true →
        Replied { relay with out := relay.out ++ ending ++ [.messageDone .client ec] }
          (shown { relay with out := relay.out ++ ending ++ [.messageDone .client ec] } view)) := by
  rcases handling with ⟨answering, awaits, fits, frames, ⟨-, notBroken, -, asPromised⟩, arrived⟩
  have isShown : shown { relay with out := relay.out ++ ending ++ [.messageDone .client ec] } view =
      (relay.shown view).watch (.messageDone .client ec) := by
    simp only [shown, List.foldl_append, (ends.ignored _).2, List.foldl_cons, List.foldl_nil]
  have checked : ResponseCheck (relay.shown view) (.messageDone .client ec) ∧
      (next.answers = true →
        relay.Replied ((relay.shown view).watch (.messageDone .client ec))) := by
    cases ec with
    | none =>
      have answers := ends.answers frames awaits fits asPromised
      rw [List.foldl_append, (ends.ignored _).2, ← arrived] at answers
      exact answers.messageDone
    | some ec =>
      refine ⟨trivial, fun isAnswer => .inr ⟨rfl, notBroken ?_⟩⟩
      simp only [breaksOff, ends.failedMessage]
      cases next <;> simp_all [WriteThen.answers]
  constructor
  · refine ⟨answering.idle, answering.overTcp, ?_, ?_⟩
    · rw [always_append, always_append, List.foldl_append, (ends.ignored _).2]
      exact ⟨⟨answering.passes, (ends.ignored _).1⟩, checked.1, trivial⟩
    · rw [isShown]
      exact answering.doneShut
  · rw [isShown]
    exact checked.2

/-- The writer of a request calls its callback. -/
theorem Handling.requestDone (handling : Handling view relay op completion) {codec : Codec}
    {body : Option MessageBody} {retryAllowed : Bool} {actions : List Action}
    (writing : relay.Writing (.backend stream) codec body (.requestWritten retryAllowed))
    (clean : relay.Unanswered view)
    (ignored : Ignored ResponseView.watch ResponseCheck actions)
    (fails : ∀ error, ec = some error →
      failedMessage op completion = some (.requestWritten retryAllowed))
    (resumes : Resumes { relay with out := relay.out ++ actions } (.requestWritten retryAllowed) ec
      after) : Framed view after := by
  rcases handling.answering.more ignored relay.backend relay.pendingHead relay.pendingBody with
    ⟨done, same⟩
  apply resumes.framed (writing.update _ _) done
  · intro _ _
    rw [same]
    exact handling.unanswered clean
  · rintro _ ⟨⟩ failed final
    rcases Option.ne_none_iff_exists'.mp failed with ⟨error, isError⟩
    exact method_of_failed (fails error isError) handling.framesStep.2.2.1 final
  · simp [WriteThen.answers]

theorem Handling.framed_connect (handling : Handling view relay op completion)
    {parsed : ParsedRequest} {target : ConnectTarget} {next : ConnectThen}
    (progress : requestProgress op completion = some (.complete parsed)) (idleTimer : IdleTimer)
    (connects : connectionFor relay.rules parsed = some (target, next)) :
    Framed view ((relay.served parsed idleTimer).connect target next) := by
  rcases handling.answering.served (handling.waiting progress) _ idleTimer with ⟨serving, clean⟩
  apply serving.framed_unanswered clean
  · rfl
  · simp [Ignored, ResponseCheck, ResponseView.watch]
  · rfl
  · rfl
  · refine ⟨clean, ?_⟩
    rintro rfl
    unfold connectionFor at connects
    split at connects
    · rename_i target' tunnels
      exact connect_of_tunnel tunnels
    all_goals simp at connects

theorem Handling.framed_asks (handling : Handling view relay op completion) {codec : Codec}
    {body : MessageBody} {bodyStep : BodySource × BodyStep} {capacity : ℕ}
    (advances : Advances op completion dest codec body next bodyStep)
    (asks : bodyStep.2 = .read capacity) :
    Framed view
      { relay with
        pending := relay.pending ++
          [.readBody dest codec { body with source := bodyStep.1 } capacity next]
        out := relay.out ++ [.read body.peer capacity] } := by
  rcases (advances.writing_body handling.awaits).dest_cases with ⟨rfl, -, -⟩ | ⟨stream, r, rfl, rfl⟩
  · have goes := advances.answers handling.frames handling.awaits handling.fits
      handling.framesStep.2.2.2
    rw [asks, ← handling.shown_eq] at goes
    apply handling.answering.framed_await
    · rfl
    · simp [Ignored, ResponseCheck, ResponseView.watch]
    · rfl
    · rfl
    · exact ⟨goes, advances.wired (advances.wired_body handling.frames), advances.unbuffered asks⟩
    · simp [goes.answering]
  · have clean := handling.unanswered (advances.unanswered handling.frames)
    apply handling.answering.framed_unanswered clean
    · rfl
    · simp [Ignored, ResponseCheck, ResponseView.watch]
    · rfl
    · rfl
    · exact clean

theorem Handling.framed_piece (handling : Handling view relay op completion) {codec : Codec}
    {body : MessageBody} {bodyStep : BodySource × BodyStep} {data : Bytes}
    (advances : Advances op completion dest codec body next bodyStep)
    (delivers : bodyStep.2 = .deliver (.ok data)) (nonempty : data ≠ []) :
    Framed view
      { relay with
        pending := relay.pending ++ [.writeBody dest codec { body with source := bodyStep.1 } next]
        out := relay.out ++ [.delivered dest data, .write dest data] } := by
  rcases (advances.writing_body handling.awaits).dest_cases with ⟨rfl, -, -⟩ | ⟨stream, r, rfl, rfl⟩
  · have goes := advances.answers handling.frames handling.awaits handling.fits
      handling.framesStep.2.2.2
    rw [delivers, ← handling.shown_eq] at goes
    rcases List.exists_cons_of_ne_nil nonempty with ⟨byte, piece, rfl⟩
    have answeringStill : (relay.shown view).stage = .answering := goes.answering
    apply handling.answering.framed
    · rfl
    · rfl
    · rfl
    · exact ⟨trivial, .inl answeringStill, trivial⟩
    · exact ⟨goes, advances.wired (advances.wired_body handling.frames)⟩
    · simp [ResponseView.watch, answeringStill]
  · have clean := handling.unanswered (advances.unanswered handling.frames)
    apply handling.answering.framed_unanswered clean
    · rfl
    · simp [Ignored, ResponseCheck, ResponseView.watch]
    · rfl
    · rfl
    · exact clean

theorem Handling.framed_finishes (handling : Handling view relay op completion)
    {shown : List Action} (ends : Ends op completion dest .h3 next ec shown) :
    Framed view
      { relay with
        pending := relay.pending ++ [.finish dest next]
        out := relay.out ++ shown ++ [.shutdown dest] } := by
  -- the client speaks HTTP/1.1, so this is a request
  rcases (ends.writing handling.awaits).dest_cases with ⟨-, isCodec, -⟩ | ⟨stream, r, rfl, rfl⟩
  · simp [handling.answering.overTcp] at isCodec
  · have clean := handling.unanswered (ends.unanswered handling.frames)
    apply handling.answering.framed_unanswered clean
    · exact List.append_assoc _ _ _
    · apply ends.ignored.append
      simp [Ignored, ResponseCheck, ResponseView.watch]
    · rfl
    · rfl
    · exact clean

theorem Handling.framed_messageEnds (handling : Handling view relay op completion)
    {shown : List Action} (ends : Ends op completion dest .h1 next ec shown)
    (resumes : Resumes { relay with out := relay.out ++ shown ++ [.messageDone dest ec] } next ec
      after) : Framed view after := by
  have writing := ends.writing handling.awaits
  rcases writing.dest_cases with ⟨rfl, -, answers⟩ | ⟨stream, retryAllowed, rfl, rfl⟩
  · rcases handling.messageDone ends with ⟨done, replied⟩
    exact resumes.framed (writing.update _ _) done (fun r isRequest => absurd isRequest (answers r))
      (fun r isRequest => absurd isRequest (answers r)) replied
  · simp only [List.append_assoc] at resumes
    apply handling.requestDone writing (ends.unanswered handling.frames) ?_ ?_ resumes
    · exact ends.ignored.append (messageDone_ignored stream ec)
    · rintro error rfl
      exact ends.failedMessage

theorem Handling.framed_finished (handling : Handling view relay (.finish dest next) (.written ec))
    (resumes : Resumes { relay with out := relay.out ++ [.messageDone dest ec] } next ec after) :
    Framed view after := by
  have writing : relay.Writing dest .h3 none next := handling.awaits
  rcases writing.dest_cases with ⟨-, isCodec, -⟩ | ⟨stream, retryAllowed, rfl, rfl⟩
  · simp [handling.answering.overTcp] at isCodec
  · apply handling.requestDone writing handling.frames (messageDone_ignored stream ec) ?_ resumes
    rintro error rfl
    rfl

/-- The head of a response, and a body that fits it, goes to the client. -/
theorem Handling.framed_answered (handling : Handling view relay op completion)
    {parsed : ParsedResponse} {body : Option MessageBody} (idleTimer : IdleTimer)
    (progress : responseProgress stream op completion = some (.complete parsed))
    (answers : Answers relay.Closing
      { (relay.shown view).watch (.response stream parsed) with
        written := responseBytes (relay.clientHead parsed.head) } next
      (body.map MessageBody.source)) (wired : Wired body) :
    Framed view ((relay.answered stream parsed idleTimer).writeResponse
      (relay.clientHead parsed.head) body next) := by
  have clean := handling.unanswered_of_progress progress
  rcases handling.answering.answered stream parsed idleTimer with ⟨relaying, same⟩
  apply relaying.framed_writeResponse
  · rw [same]
    exact clean
  · rw [same]
    exact answers
  · exact wired

/-- The callback of an operation leaves the client's side as the next one expects it. -/
theorem Handled.framed (handled : relay.Handled op completion after)
    (handling : Handling view relay op completion)
    (lastShut : view.stage = .last → view.shut = true) : Framed view after := by
  rcases handling.framesStep with ⟨framesAnswer, -, notHead, -⟩
  have frames := handling.frames
  cases handled with
  | requestMore progress =>
    have waiting := handling.waiting progress
    apply handling.answering.framed_await
    · rfl
    · simp [Ignored, ResponseCheck, ResponseView.watch]
    · rfl
    · rfl
    · exact waiting
    · simp [waiting]
  | requestFails ec progress => exact handling.answering.framed_teardown
  | requestForwarded progress idleTimer connects =>
    exact handling.framed_connect progress idleTimer connects
  | requestRejected progress idleTimer rejects =>
    rcases handling.answering.served (handling.waiting progress) _ idleTimer with
      ⟨serving, clean⟩
    exact serving.framed_writeError clean (method_of_rejected progress rejects notHead)
      (failure_of_reject rejects) _
  | connectFails target next ec message =>
    apply handling.answering.framed_writeError (handling.unanswered frames.1)
    · simpa [answersHead] using notHead
    · simp
  | requestSent target head body stream endpoint fromPool idleTimer =>
    have clean := handling.unanswered frames.1
    apply handling.answering.framed_unanswered clean
    · rfl
    · intro view
      cases codecFor endpoint <;> simp [headAction, ResponseCheck, ResponseView.watch]
    · rfl
    · rfl
    · exact clean
  | tunnelAccepted target stream endpoint fromPool =>
    have clean := handling.unanswered frames.1
    have answering := handling.answering
    apply Answering.framed_writeResponse
    · exact ⟨answering.idle, answering.overTcp, answering.passes, answering.doneShut⟩
    · exact clean
    · exact answers_startTunnel clean (frames.2 rfl)
    · simp [Wired]
  | requestResent target stream endpoint fromPool head kept =>
    have clean := handling.unanswered frames.1
    apply handling.answering.framed_unanswered clean
    · rfl
    · intro view
      cases relay.backendCodec <;> simp [headAction, ResponseCheck, ResponseView.watch]
    · rfl
    · rfl
    · exact clean
  | bodyAsks advances asks => exact handling.framed_asks advances asks
  | pieceSent advances delivers nonempty => exact handling.framed_piece advances delivers nonempty
  | finishes ends => exact handling.framed_finishes ends
  | messageEnds ends resumes => exact handling.framed_messageEnds ends resumes
  | finished dest next ec resumes => exact handling.framed_finished resumes
  | responseMore progress =>
    have clean := handling.unanswered_of_progress progress
    apply handling.answering.framed_unanswered clean
    · rfl
    · simp [Ignored, ResponseCheck, ResponseView.watch]
    · rfl
    · rfl
    · exact clean
  | responseFails ec progress =>
    rcases handling.answering.more (ignored_closeActions relay) none relay.pendingHead
      relay.pendingBody with ⟨closed, same⟩
    apply closed.framed_writeError
    · rw [same]
      exact handling.unanswered_of_progress progress
    · exact method_of_unparsed progress notHead
    · simp
  | upgradeAnswered progress idleTimer upgrades =>
    have clean := handling.unanswered_of_progress progress
    apply handling.framed_answered idleTimer progress
    · apply (answers_of_framesResponse clean (framesResponse_of_answer progress framesAnswer)).1
      simpa [RelaySession.upgrades] using upgrades
    · simp [Wired]
  | responseAnswered progress idleTimer plain =>
    have clean := handling.unanswered_of_progress progress
    apply handling.framed_answered idleTimer progress
    · apply (answers_of_framesResponse clean (framesResponse_of_answer progress framesAnswer)).2
      simpa [RelaySession.upgrades] using plain
    · exact wired_clientBody progress handling.awaits
  | drainReads data examined idleTimer running =>
    rcases exists_arrived view .drainRead (.read (.ok data) examined) with ⟨count, counted⟩
    refine ⟨?_, ?_, ?_, ?_⟩
    · exact always_append.mpr ⟨handling.answering.passes, trivial, trivial⟩
    · simp [handling.answering.idle, Frames]
    · exact fun done => by simp [running] at done
    · simp only [shown, List.foldl_append, handling.arrived, counted]
      exact lastShut
  | drainEnds completion => exact handling.answering.framed_teardown

end Handling

theorem framed_tunnel (running : after.done = false)
    (passes : Always ResponseView.watch ResponseCheck view after.out)
    (isTunnel : (after.shown view).stage = .tunnel)
    (tunnels : ∀ op ∈ after.pending, ∃ src dst, op.Carries src dst) : Framed view after := by
  refine ⟨passes, ?_, ?_, ?_⟩
  · intro op opMem
    rcases tunnels op opMem with ⟨src, dst, rfl | rfl⟩
    · exact fun _ => isTunnel
    · exact fun _ => isTunnel
  · simp [running]
  · simp [isTunnel]

theorem Carried.framed {op left : Op} {src dst src' dst' : Peer}
    (carried : relay.Carried src dst op completion after) (carries : op.Carries src dst)
    (isLeft : relay.pending = [left]) (leftCarries : left.Carries src' dst')
    (arrived : relay.out = arrivals op completion) (doneShut : relay.done = true → view.shut = true)
    (frames : relay.Frames view op) : Framed view after := by
  rcases exists_arrived view op completion with ⟨count, counted⟩
  have isShown : relay.shown view = { view with arrived := count } := by
    rw [shown, arrived, counted]
  have passes : Always ResponseView.watch ResponseCheck view relay.out :=
    arrived ▸ always_arrived view op completion
  have isTunnel : relay.done = false → (relay.shown view).stage = .tunnel := by
    rw [isShown]
    rcases carries with rfl | rfl <;> exact frames
  cases carried with
  | forwards data examined nonempty idleTimer running =>
    apply framed_tunnel
    · exact running
    · refine always_append.mpr ⟨passes, ?_, trivial⟩
      cases dst with
      | client => exact .inr (isTunnel running)
      | backend stream => exact trivial
    · have tunneling := isTunnel running
      simp only [shown, List.foldl_append, List.foldl_cons, List.foldl_nil] at tunneling ⊢
      cases dst <;> exact tunneling
    · simp only [isLeft, List.cons_append, List.nil_append, List.mem_cons, List.not_mem_nil,
        or_false, forall_eq_or_imp, forall_eq]
      exact ⟨⟨_, _, leftCarries⟩, _, _, .inr rfl⟩
  | reads idleTimer running =>
    apply framed_tunnel
    · exact running
    · exact always_append.mpr ⟨passes, trivial, trivial⟩
    · have tunneling := isTunnel running
      simp only [shown, List.foldl_append, List.foldl_cons, List.foldl_nil] at tunneling ⊢
      exact tunneling
    · simp only [isLeft, List.cons_append, List.nil_append, List.mem_cons, List.not_mem_nil,
        or_false, forall_eq_or_imp, forall_eq]
      exact ⟨⟨_, _, leftCarries⟩, _, _, .inl rfl⟩
  | ends =>
    apply framed_teardown passes
    · rw [isShown]
      exact doneShut
    · simp only [isLeft, List.mem_singleton, forall_eq]
      rcases leftCarries with rfl | rfl <;> exact isTunnel

/-- What holds in every state of a run that frames its responses. -/
structure FramingInvariant (view : ResponseView) (relay : RelaySession) : Prop where
  control : relay.Control
  overTcp : relay.clientCodec = .h1
  frames : ∀ op ∈ relay.pending, relay.Frames view op
  doneShut : relay.done = true → view.shut = true
  lastShut : view.stage = .last → view.shut = true

theorem Outcome.framed {input : Input} (outcome : relay.Outcome input after)
    (invariant : FramingInvariant view relay) (framesStep : FramesStep (relay, view) input) :
    Framed view after := by
  rcases invariant with ⟨-, overTcp, frames, doneShut, lastShut⟩
  cases outcome with
  | exchange waits awaits fits handled =>
    rename_i op completion
    have framesOp := (frames op (by simp [waits])).update id rfl id view.shut
    exact handled.framed
      (.start rfl rfl (awaits.update _ _ _ _) fits overTcp doneShut framesOp framesStep) lastShut
  | tunnel bridging holds directions carries outstanding fits carried =>
    have framesOp := (frames _ outstanding).update id rfl id view.shut
    rcases directions with ⟨-, -, left⟩ | ⟨-, -, left⟩
    · exact carried.framed carries rfl left rfl doneShut framesOp
    · exact carried.framed carries rfl left rfl doneShut framesOp
  | ignored done carries outstanding fits =>
    rename_i op completion src dst
    rcases exists_arrived view op completion with ⟨count, counted⟩
    refine ⟨always_arrived view op completion, by simp, ?_, ?_⟩
    · simp only [shown, counted]
      exact doneShut
    · simp only [shown, counted]
      exact lastShut
  | expired kick armed =>
    refine ⟨trivial, ?_, doneShut, lastShut⟩
    exact fun op opMem => (frames op opMem).update id rfl id view.shut
  | timedOut kick expired queued =>
    apply framed_teardown
    · exact ⟨trivial, trivial⟩
    · exact doneShut
    · exact fun op opMem => (frames op opMem).update id rfl id view.shut
  | shutsDown running waiting =>
    refine ⟨⟨trivial, trivial⟩, ?_, fun _ => rfl, fun _ => rfl⟩
    intro op opMem
    apply (frames op opMem).update
    · exact fun _ => .inr (.inl rfl)
    · rfl
    · exact id
  | drains running busy =>
    refine ⟨trivial, ?_, doneShut, lastShut⟩
    intro op opMem
    apply (frames op opMem).update
    · exact fun _ => .inr (.inl rfl)
    · rfl
    · exact id
  | alreadyClosed done =>
    refine ⟨trivial, ?_, doneShut, lastShut⟩
    exact fun op opMem => (frames op opMem).update id rfl id view.shut

end Callbacks

theorem framingInvariant_start (rules : List Router.Rule) (idleTimeout : ℕ) :
    FramingInvariant {} (start .h1 rules idleTimeout) := by
  rcases requestPhase_eq { clientCodec := .h1, rules, idleTimeout } with ⟨idleTimer, entered⟩
  refine ⟨control_start .h1 rules idleTimeout, ?_, ?_, ?_, by simp⟩
  · rw [start, entered]
  · rw [start, entered]
    simp [parseOp, Frames]
  · rw [start, entered]
    simp

/--
In every run over a TCP client in which responses announce the bodies that are relayed with
them, break off only where the connection is not kept, and `write_error` does not answer
HEAD, the client receives exactly one response message for each request, with the content
that the body source delivered; and a response that runs to the end of the connection or was
cut short is the last one, followed by a shutdown.
-/
theorem response_framing {rules : List Router.Rule} {idleTimeout : ℕ} {trace : List Action}
    {last : RelaySession × ResponseView}
    (runs : Runs (watched step ResponseView.watch) FramesStep
      (start .h1 rules idleTimeout, {}) trace last) : FramesResponses trace := by
  have monitored : Always ResponseView.watch ResponseCheck {} trace ∧
      FramingInvariant (trace.foldl ResponseView.watch {}) last.1 := by
    -- `Framed` speaks of the actions of one step, the invariant of the view behind them
    apply runs.monitored_of_watched (framingInvariant_start rules idleTimeout)
    intro view relay input next actions invariant framesStep taken
    rcases outcome_of_step invariant.control taken with ⟨after, outcome, controlled, rfl, rfl⟩
    have framed := outcome.framed invariant framesStep
    refine ⟨framed.passes, controlled.update _ _ _, ?_, ?_, framed.doneShut, framed.lastShut⟩
    · exact outcome.clientCodec_eq.trans invariant.overTcp
    · exact fun op opMem => (framed.frames op opMem).update id rfl id _
  exact ⟨always_iff_forall.mp monitored.1, monitored.2.lastShut⟩

/-- A response with a length, relayed whole. -/
def sizedResponse : List Input :=
  let body (remaining : ℕ) : MessageBody := ⟨.backend ⟨1, .TCP⟩, .stream remaining⟩
  exchangeUpTo (ascii "HTTP/1.1 200 OK\r\nContent-Length: 2\r\n\r\n") ++
    [.complete (.writeHead .client .h1 (some (body 2)) (.responseWritten true)) (.written none),
      .complete (.readBody .client .h1 (body 2) 2 (.responseWritten true))
        (.read (.ok (ascii "hi")) 0),
      .complete (.writeBody .client .h1 (body 0) (.responseWritten true)) (.written none)]

theorem response_framing_sizedResponse :
    ∃ trace last, Runs (watched step ResponseView.watch) FramesStep
        (start .h1 anyHost 30, {}) trace last ∧
      .phase .request ∈ trace ∧ FramesResponses trace := by
  have reached : (run (watched step ResponseView.watch)
      (fun current input => decide (FramesStep current input)) (start .h1 anyHost 30, {})
      sizedResponse).any (fun last => decide (.phase .request ∈ last.2)) = true := by
    decide +kernel
  rcases exists_runs_of_run reached with ⟨trace, last, runs, reenters⟩
  exact ⟨trace, last, runs, reenters, response_framing runs⟩

/-- A response that ends with the backend's connection. -/
def closeDelimited : List Input :=
  let body : MessageBody := ⟨.backend ⟨1, .TCP⟩, .streamEof⟩
  exchangeUpTo (ascii "HTTP/1.1 200 OK\r\n\r\n") ++
    [.complete (.writeHead .client .h1 (some body) (.responseWritten false)) (.written none),
      .complete (.readBody .client .h1 body 8192 (.responseWritten false))
        (.read (.ok (ascii "hi")) 0),
      .complete (.writeBody .client .h1 body (.responseWritten false)) (.written none),
      .complete (.readBody .client .h1 body 8192 (.responseWritten false))
        (.read (.error .eof) 0)]

/-- A response that only the end of the connection delimits, on a connection that is kept. -/
theorem closeDelimited_not_framesResponses :
    ∃ trace relay, Runs step anyInput (start .h1 anyHost 30) trace relay ∧
      ¬FramesResponses trace := by
  let keptCheck : ResponseView → Action → Prop := fun view action =>
    action = .phase .request → view.stage = .answered
  have reached : (run step (fun _ _ => true) (start .h1 anyHost 30) closeDelimited).any
      (fun last => decide ¬Always ResponseView.watch keptCheck {} last.2) = true := by
    decide +kernel
  rcases exists_runs_any reached with ⟨trace, relay, runs, shows⟩
  refine ⟨trace, relay, runs, ?_⟩
  intro frames
  apply shows
  rw [always_iff_forall]
  rintro before action after split rfl
  exact frames.1 before _ after split

end RelaySession

end ReverseProxy
