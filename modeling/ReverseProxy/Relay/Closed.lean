import ReverseProxy.Relay.Steps

/-!
# What still happens after teardown

`teardown` sets `done_` and closes both streams, but the operations that are
outstanding at that moment still complete.  The callbacks of tunnels and of the drain
loop test `done_`; the others do not, and most of them go on with the exchange.
`Quiet` picks out the completions whose callbacks have nothing left to do, and as long
as only those arrive a closed relay stays closed and leaves its streams alone.
-/

namespace ReverseProxy

open Machine Text

namespace RelaySession

/-- The relay reads from or writes to a stream. -/
def Action.usesStream : Action → Bool
  | .read _ _ | .takeHeaders _ | .write _ _ | .sendHeaders _ _ => true
  | _ => false

/-- The state in which `teardown` leaves a relay. -/
structure Closed (relay : RelaySession) : Prop where
  done : relay.done = true
  phase : relay.phase = .closed
  backend : relay.backend = none

/-! ## Callbacks that have nothing left to do -/

/-- The callbacks of a message writer that leave a closed relay alone. -/
def resumesQuietly : WriteThen → Option ErrorCode → Bool
  | .requestWritten _, _ => false
  | .responseWritten _, _ | .errorWritten, _ => true
  | .upgraded, ec | .tunnelOpened, ec => ec.isSome

/-- The end of a message; over HTTP/3 it is only a FIN. -/
def endsQuietly (codec : Codec) (next : WriteThen) (ec : Option ErrorCode) : Bool :=
  codec = .h3 || resumesQuietly next ec

/-- The body source reports its end or an error instead of more work. -/
def pumpsQuietly (codec : Codec) (next : WriteThen) : BodyStep → Bool
  | .deliver (.error ec) => endsQuietly codec next (some ec)
  | .deliver (.ok []) => endsQuietly codec next none
  | .deliver (.ok _) | .read _ => false

/-- The completions whose callbacks test `done_` or have nothing left to do. -/
def Quiet : Op → Completion → Bool
  | .readHead .client buf, .read result _ =>
    match H1Codec.onBlockRead H1Codec.finishRequest buf result with
    | .failed _ => true
    | _ => false
  | .takeHeaders .client, .headers (.error _) => true
  | .writeHead _ codec body next, .written ec =>
    match ec, body with
    | none, some body => pumpsQuietly codec next (body.source.asyncReadSome pumpSize).2
    | ec, _ => endsQuietly codec next ec
  | .readBody _ codec body _ next, .read result examined =>
    pumpsQuietly codec next (body.source.onRead examined result).2
  | .writeBody _ codec body next, .written ec =>
    match ec with
    | none => pumpsQuietly codec next (body.source.asyncReadSome pumpSize).2
    | some ec => endsQuietly codec next (some ec)
  | .finish _ next, .written ec => resumesQuietly next ec
  | .tunnelRead _ _, .read _ _ | .tunnelWrite _ _, .written _ | .drainRead, .read _ _ => true
  | _, _ => false

/-- In a relay that has been torn down, only callbacks run that have nothing left to do. -/
def LateCallbacksQuiet (relay : RelaySession) : Input → Prop
  | .complete op completion => relay.done = true → Quiet op completion = true
  | _ => True

instance (relay : RelaySession) (input : Input) : Decidable (relay.LateCallbacksQuiet input) := by
  cases input <;> unfold LateCallbacksQuiet <;> infer_instance

theorem silent_arrivals (op : Op) (completion : Completion) :
    ∀ action ∈ arrivals op completion, action.usesStream = false := by
  intro action actionMem
  unfold arrivals at actionMem
  split at actionMem
  · split at actionMem
    · simp only [List.mem_singleton] at actionMem
      subst actionMem
      rfl
    · simp at actionMem
  · simp at actionMem

/-! ## Closed relays -/

section Closed

variable {relay : RelaySession}

/-- A callback that leaves a closed relay closed and does not touch a stream. -/
structure Rests (relay next : RelaySession) : Prop where
  closed : next.Closed
  silent : ∃ more, next.out = relay.out ++ more ∧ ∀ action ∈ more, action.usesStream = false

theorem Closed.rests (closed : relay.Closed) : relay.Rests relay :=
  ⟨closed, [], by simp, by simp⟩

theorem Closed.emit (closed : relay.Closed) (action : Action) : (relay.emit action).Closed :=
  ⟨closed.done, closed.phase, closed.backend⟩

theorem Rests.of_emit {next : RelaySession} {action : Action} (silent : action.usesStream = false)
    (rests : (relay.emit action).Rests next) : relay.Rests next := by
  rcases rests with ⟨closed, more, extends_, silentMore⟩
  refine ⟨closed, action :: more, by simpa [RelaySession.emit] using extends_, ?_⟩
  simpa [silent] using silentMore

theorem Closed.teardown_eq (closed : relay.Closed) : relay.teardown = relay :=
  teardown_of_done relay closed.done

theorem Closed.afterClientResponse_eq (closed : relay.Closed) :
    relay.afterClientResponse = relay := by
  simp [afterClientResponse, gracefullyCloseClient, drainClient, closed.done]

theorem Closed.resume (closed : relay.Closed) {next : WriteThen} {ec : Option ErrorCode}
    (quiet : resumesQuietly next ec = true) : relay.Rests (relay.resume next ec) := by
  cases next with
  | requestWritten retryAllowed => simp [resumesQuietly] at quiet
  | responseWritten backendKeepAlive =>
    have finished : relay.finishBackend backendKeepAlive =
        { relay with pendingHead := none, pendingBody := none } := by
      simp [finishBackend, closed.backend]
    have stillClosed : (relay.finishBackend backendKeepAlive).Closed := by
      rw [finished]
      exact ⟨closed.done, closed.phase, closed.backend⟩
    rw [RelaySession.resume, stillClosed.afterClientResponse_eq]
    exact ⟨stillClosed, [], by simp [finished], by simp⟩
  | upgraded =>
    rcases Option.isSome_iff_exists.mp quiet with ⟨ec, rfl⟩
    rw [RelaySession.resume, closed.teardown_eq]
    exact closed.rests
  | tunnelOpened =>
    rcases Option.isSome_iff_exists.mp quiet with ⟨ec, rfl⟩
    rw [RelaySession.resume, closed.teardown_eq]
    exact closed.rests
  | errorWritten =>
    rw [RelaySession.resume, closed.afterClientResponse_eq]
    exact closed.rests

theorem Closed.messageDone (closed : relay.Closed) (dest : Peer) {next : WriteThen}
    {ec : Option ErrorCode} (quiet : resumesQuietly next ec = true) :
    relay.Rests (relay.messageDone dest next ec) :=
  .of_emit rfl ((closed.emit _).resume quiet)

theorem Closed.endMessage (closed : relay.Closed) (dest : Peer) {codec : Codec}
    {next : WriteThen} {ec : Option ErrorCode} (quiet : endsQuietly codec next ec = true) :
    relay.Rests (relay.endMessage dest codec next ec) := by
  cases codec with
  | h1 => exact closed.messageDone dest (by simpa [endsQuietly] using quiet)
  | h3 =>
    refine ⟨⟨closed.done, closed.phase, closed.backend⟩, [.shutdown dest], rfl, ?_⟩
    simp [Action.usesStream]

theorem Closed.pumpStep (closed : relay.Closed) (dest : Peer) {codec : Codec}
    (body : MessageBody) {next : WriteThen} {bodyStep : BodySource × BodyStep}
    (quiet : pumpsQuietly codec next bodyStep.2 = true) :
    relay.Rests (relay.pumpStep dest codec body next bodyStep) := by
  unfold RelaySession.pumpStep
  dsimp only
  split
  · rename_i asks
    simp [asks, pumpsQuietly] at quiet
  · rename_i ec failed
    rw [failed] at quiet
    exact closed.endMessage dest quiet
  · rename_i ended
    rw [ended] at quiet
    exact .of_emit rfl ((closed.emit _).endMessage dest quiet)
  · rename_i data nonempty delivered
    rw [delivered] at quiet
    cases data with
    | nil => exact absurd rfl nonempty
    | cons byte data => simp [pumpsQuietly] at quiet

theorem Closed.handle (closed : relay.Closed) {op : Op} {completion : Completion}
    (quiet : Quiet op completion = true) : relay.Rests (relay.handle op completion) := by
  unfold Quiet at quiet
  split at quiet
  · split at quiet
    · rename_i failed
      simp only [RelaySession.handle, onRequestRead, failed, closed.teardown_eq]
      exact closed.rests
    · simp at quiet
  · simp only [RelaySession.handle, onRequestHeaders, closed.teardown_eq]
    exact closed.rests
  · rename_i dest codec body next ec
    cases ec with
    | none =>
      cases body with
      | none => exact closed.endMessage dest quiet
      | some body => exact closed.pumpStep dest body quiet
    | some ec => exact closed.endMessage dest quiet
  · exact closed.pumpStep _ _ quiet
  · simp only [RelaySession.handle, onPieceWritten]
    split at quiet
    · exact closed.pumpStep _ _ quiet
    · exact closed.endMessage _ quiet
  · exact closed.messageDone _ quiet
  · simp only [RelaySession.handle, onTunnelRead, closed.done, if_true]
    exact closed.rests
  · simp only [RelaySession.handle, onTunnelWrite, closed.done, if_true]
    exact closed.rests
  · simp only [RelaySession.handle, onDrainRead, closed.done, if_true]
    exact closed.rests
  · simp at quiet

theorem Closed.step (closed : relay.Closed) {next : RelaySession} {input : Input}
    {actions : List Action} (quiet : relay.LateCallbacksQuiet input)
    (taken : relay.step input = some (next, actions)) :
    next.Closed ∧ ∀ action ∈ actions, action.usesStream = false := by
  suffices rests : ∀ after, relay.Stepped input after → after.Closed ∧
      ∀ action ∈ after.out, action.usesStream = false by
    rcases stepped_of_step taken with ⟨after, -, stepped, rfl, rfl⟩
    rcases rests after stepped with ⟨afterClosed, silent⟩
    exact ⟨⟨afterClosed.done, afterClosed.phase, afterClosed.backend⟩, silent⟩
  intro after stepped
  cases stepped with
  | completed op completion outstanding fits =>
    have beforeClosed : Closed
        { relay with
          pending := relay.pending.erase op, out := arrivals op completion } :=
      ⟨closed.done, closed.phase, closed.backend⟩
    rcases beforeClosed.handle (quiet closed.done) with ⟨afterClosed, more, extends_, silent⟩
    refine ⟨afterClosed, ?_⟩
    rw [extends_]
    intro action actionMem
    rcases List.mem_append.mp actionMem with arrived | late
    · exact silent_arrivals op completion action arrived
    · exact silent action late
  | expired kick armed => exact ⟨⟨closed.done, closed.phase, closed.backend⟩, by simp⟩
  | timedOut kick expired queued =>
    simp only [teardown, closed.done, if_true]
    exact ⟨⟨rfl, closed.phase, closed.backend⟩, by simp [Action.usesStream]⟩
  | drained =>
    rw [gracefulClose, if_pos closed.done]
    exact ⟨⟨closed.done, closed.phase, closed.backend⟩, by simp⟩

end Closed

/-! ## Runs -/

section FirstTeardown

variable {relay after : RelaySession}

theorem closed_teardown (running : relay.done = false) : relay.teardown.Closed := by
  rw [teardown_eq _ running]
  exact ⟨rfl, rfl, rfl⟩

theorem done_writeResponse (head : HttpResponseHead) (body : Option MessageBody)
    (next : WriteThen) : (relay.writeResponse head body next).done = relay.done := by
  rw [writeResponse, writeMessage_eq]

theorem AfterResponse.done_eq (continues : relay.AfterResponse after) :
    after.done = relay.done := by
  cases continues <;> rfl

theorem Resumes.closed {next : WriteThen} {ec : Option ErrorCode}
    (resumes : relay.Resumes next ec after) (running : relay.done = false)
    (tornDown : after.done = true) : after.Closed := by
  cases resumes with
  | bridgeFails => exact closed_teardown running
  | writeFails => simp [writeError, done_writeResponse, running] at tornDown
  | exchanged _ _ continues => simp [continues.done_eq, running] at tornDown
  | rejected _ continues => simp [continues.done_eq, running] at tornDown
  | _ => simp [running] at tornDown

theorem Handled.closed {op : Op} {completion : Completion}
    (handled : relay.Handled op completion after) (running : relay.done = false)
    (tornDown : after.done = true) : after.Closed := by
  cases handled with
  | requestFails => exact closed_teardown running
  | drainEnds => exact closed_teardown running
  | messageEnds _ resumes => exact resumes.closed running tornDown
  | finished _ _ _ resumes => exact resumes.closed running tornDown
  | requestForwarded => simp [connect, served, emit, await, running] at tornDown
  | requestRejected => simp [writeError, done_writeResponse, served, running] at tornDown
  | connectFails => simp [writeError, done_writeResponse, running] at tornDown
  | responseFails => simp [writeError, done_writeResponse, running] at tornDown
  | tunnelAccepted => simp [startTunnel, done_writeResponse, running] at tornDown
  | upgradeAnswered => simp [done_writeResponse, answered, running] at tornDown
  | responseAnswered => simp [done_writeResponse, answered, running] at tornDown
  | _ => simp [running] at tornDown

theorem Carried.closed {op : Op} {completion : Completion} {src dst : Peer}
    (carried : relay.Carried src dst op completion after) (running : relay.done = false)
    (tornDown : after.done = true) : after.Closed := by
  cases carried with
  | ends => exact closed_teardown running
  | _ => simp [running] at tornDown

theorem Outcome.closed {input : Input} (outcome : relay.Outcome input after)
    (running : relay.done = false) (tornDown : after.done = true) : after.Closed := by
  cases outcome with
  | exchange _ _ _ handled => exact handled.closed running tornDown
  | tunnel _ _ _ _ _ _ carried => exact carried.closed running tornDown
  | timedOut => exact closed_teardown running
  | _ => simp [running] at tornDown

end FirstTeardown

/-- As long as late callbacks have nothing left to do, every torn down relay is closed. -/
theorem closed_of_runs {clientCodec : Codec} {rules : List Router.Rule} {idleTimeout : ℕ}
    {trace : List Action} {relay : RelaySession}
    (runs : Runs step LateCallbacksQuiet (start clientCodec rules idleTimeout) trace
      relay) (tornDown : relay.done = true) : relay.Closed := by
  induction runs with
  | refl =>
    rcases requestPhase_eq { clientCodec, rules, idleTimeout } with ⟨idleTimer, entered⟩
    simp [start, entered] at tornDown
  | @snoc _ relay next _ _ runs quiet taken ih =>
    cases running : relay.done with
    | true => exact ((ih running).step quiet taken).1
    | false =>
      rcases outcome_of_step (control_of_runs runs) taken with ⟨after, outcome, -, rfl, -⟩
      rcases outcome.closed running tornDown with ⟨done, phase, backend⟩
      exact ⟨done, phase, backend⟩

/--
Closed is terminal: in a run in which the callbacks that run after teardown have nothing
left to do, the relay stays closed from teardown on, and no stream is used any more.
-/
theorem closed_is_terminal {clientCodec : Codec} {rules : List Router.Rule} {idleTimeout : ℕ}
    {trace later : List Action} {relay next : RelaySession}
    (runs : Runs step LateCallbacksQuiet (start clientCodec rules idleTimeout) trace
      relay)
    (tornDown : relay.done = true)
    (runsOn : Runs step LateCallbacksQuiet relay later next) :
    relay.Closed ∧ next.Closed ∧ ∀ action ∈ later, action.usesStream = false := by
  have closed := closed_of_runs runs tornDown
  refine ⟨closed, ?_⟩
  induction runsOn with
  | refl => exact ⟨closed, by simp⟩
  | snoc _ quiet taken ih =>
    rcases ih with ⟨closed, silent⟩
    rcases closed.step quiet taken with ⟨nextClosed, silentNow⟩
    refine ⟨nextClosed, ?_⟩
    intro action actionMem
    rcases List.mem_append.mp actionMem with earlier | now
    · exact silent action earlier
    · exact silentNow action now

/-- The client opens a tunnel and closes its end. -/
def closedTunnel : List Input :=
  [.complete (.readHead .client []) (.read (.ok (ascii "CONNECT t:443 HTTP/1.1\r\n\r\n")) 0),
    .complete (.connect (.fresh ⟨[], ascii "t", 443, .TCP⟩) .tunnel)
      (.connected (.ok (⟨1, .TCP⟩, ⟨[], ascii "t", 443, .TCP⟩, false))),
    .complete (.writeHead .client .h1 none .tunnelOpened) (.written none),
    .complete (.tunnelRead .client (.backend ⟨1, .TCP⟩)) (.read (.error .eof) 0)]

/-- The target sends more, and the server drains. -/
def afterClosedTunnel : List Input :=
  [.complete (.tunnelRead (.backend ⟨1, .TCP⟩) .client) (.read (.ok (ascii "late")) 0),
    .gracefulClose]

theorem closed_is_terminal_tunnel :
    ∃ trace relay later next,
      Runs step LateCallbacksQuiet (start .h1 [] 30) trace relay ∧
        relay.done = true ∧ Runs step LateCallbacksQuiet relay later next ∧
        relay.Closed ∧ next.Closed ∧ ∀ action ∈ later, action.usesStream = false := by
  have reached : (run step (fun relay input => decide (relay.LateCallbacksQuiet input))
      (start .h1 [] 30) closedTunnel).any (fun torn => decide (torn.1.done = true ∧
        (run step (fun relay input => decide (relay.LateCallbacksQuiet input)) torn.1
          afterClosedTunnel).isSome)) = true := by
    decide +kernel
  rcases exists_runs_of_run reached with ⟨trace, relay, runs, torn, isSome⟩
  rcases Option.isSome_iff_exists.mp isSome with ⟨⟨next, later⟩, ran⟩
  have runsOn := runs_of_run (fun _ _ => of_decide_eq_true) ran
  exact ⟨trace, relay, later, next, runs, torn, runsOn, closed_is_terminal runs torn runsOn⟩

/-- Every request goes to the backend `b`. -/
def anyHost : List Router.Rule := [⟨ascii "*", ascii "b"⟩]

/-- A `GET` for the host `a`. -/
def plainHead : HttpRequestHead :=
  { method := ascii "GET", path := ascii "/", scheme := ascii "http", authority := ascii "a"
    headers := ⟨[(ascii "Host", ascii "a")]⟩ }

/-- A request is forwarded over a new connection, and this response head comes back. -/
def exchangeUpTo (responseHead : Bytes) : List Input :=
  [.complete (.readHead .client [])
      (.read (.ok (ascii "GET / HTTP/1.1\r\nHost: a\r\n\r\n")) 0),
    .complete (.connect (.group (ascii "b")) (.useBackend plainHead none))
      (.connected (.ok (⟨1, .TCP⟩, ⟨ascii "b", ascii "h", 80, .TCP⟩, false))),
    .complete (.writeHead (.backend ⟨1, .TCP⟩) .h1 none (.requestWritten true)) (.written none),
    .complete (.readHead (.backend ⟨1, .TCP⟩) []) (.read (.ok responseHead) 0)]

/-- The client sends a request, and the idle timer fires while the pool connects. -/
def timeoutDuringConnect : List Input :=
  [.complete (.readHead .client [])
      (.read (.ok (ascii "GET / HTTP/1.1\r\nHost: a\r\n\r\n")) 0),
    .timerExpires, .timerHandler]

/-- The connection arrives. -/
def lateConnection : List Input :=
  [.complete (.connect (.group (ascii "b")) (.useBackend plainHead none))
      (.connected (.ok (⟨1, .TCP⟩, ⟨ascii "b", ascii "h", 80, .TCP⟩, false)))]

/-- A connection that arrives after teardown is used: the request is still written to it. -/
theorem late_connection_not_terminal :
    ∃ trace relay later next,
      Runs step anyInput (start .h1 anyHost 30) trace relay ∧
        relay.done = true ∧ Runs step anyInput relay later next ∧
        next.backend ≠ none ∧ ∃ action ∈ later, action.usesStream = true := by
  have reached : (run step (fun _ _ => true) (start .h1 anyHost 30)
      timeoutDuringConnect).any (fun torn => decide (torn.1.done = true ∧
        (run step (fun _ _ => true) torn.1 lateConnection).any fun late =>
          decide (late.1.backend ≠ none ∧ ∃ action ∈ late.2, action.usesStream = true))) = true := by
    decide +kernel
  rcases exists_runs_any reached with ⟨trace, relay, runs, torn, ran⟩
  rcases exists_runs_any ran with ⟨later, next, runsOn, used⟩
  exact ⟨trace, relay, later, next, runs, torn, runsOn, used⟩

end RelaySession

end ReverseProxy
