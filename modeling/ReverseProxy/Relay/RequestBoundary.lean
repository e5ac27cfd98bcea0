import ReverseProxy.Machine.Monitor
import ReverseProxy.Relay.Forwarding
import ReverseProxy.Relay.Steps

/-!
# The boundary between two requests

A client connection over TCP is read again for a next request once the response to the
previous one has been written.  The trace of a run shows what the client has sent since
the previous request began and whether its body source has reported its end; the next
request starts behind the previous one only if all of that request has been received.

Only the path through a backend reads the body of a request.  The runs in which a
boundary is missed are those in which a request with a body is answered in another way.
-/

namespace ReverseProxy

open Machine Text H1Codec

namespace RelaySession

/-- What a trace shows of the client's side since its last request began. -/
structure ClientView where
  /-- The bytes that reads of the client have returned. -/
  received : Bytes := []
  /-- The body source of the request has not reported its end. -/
  unread : Bool := false
  deriving DecidableEq

/-- Follows the client stream. -/
def ClientView.watch (view : ClientView) : Action → ClientView
  | .received .client data => { view with received := view.received ++ data }
  | .request parsed => { view with unread := parsed.body.isSome }
  | .exhausted (.backend _) => { view with unread := false }
  | .phase .request => {}
  | _ => view

/-- The request has been read to its end, by its body source and on the wire. -/
def ClientView.Consumed (view : ClientView) : Prop :=
  view.unread = false ∧
    ∃ message more content, view.received = message ++ more ∧
      Rfc9112.RequestMessage message content

/-- Wherever `after_client_response` enters `request_phase`, the request has been consumed. -/
def RequestBoundary (trace : List Action) : Prop :=
  ∀ before after, trace = before ++ .phase .request :: after →
    (before.foldl ClientView.watch {}).Consumed

/-! ## Runs that keep the boundary -/

/-- The source of a message's body, if the message is a request. -/
def WriteThen.requestBody (next : WriteThen) (body : Option MessageBody) : Option BodySource :=
  match next with
  | .requestWritten _ => body.map MessageBody.source
  | _ => none

/-- The body source of the request that an outstanding operation is on the way to read. -/
def Op.requestBody : Op → Option BodySource
  | .connect _ (.useBackend _ body) => body
  | .writeHead _ _ body next => next.requestBody body
  | .readBody _ _ body _ next | .writeBody _ _ body next => next.requestBody (some body)
  | _ => none

/--
A request that leaves the connection open announces, by RFC 9112, no more than the length
that the codec takes from it, and is forwarded if it has a body.
-/
def readsWhole (rules : List Router.Rule) (text : Bytes) (parsed : ParsedRequest) : Bool :=
  !parsed.keepAlive ||
    (Rfc9112.requestLength? text).any (· ≤ parsed.head.contentLength.getD 0) &&
      (parsed.body.isNone || (dispatch rules parsed.head).forwarded.isSome)

/--
As long as the connection may be used again, parsed requests can be read whole and no
operation on the way to reading a body fails.
-/
def ReadsRequests (relay : RelaySession) : Input → Prop
  | .complete op completion =>
    relay.draining = false → relay.done = false →
      (relay.clientKeepAlive = true → op.requestBody.isSome = true →
        completion.fails = false) ∧
      ((requestProgress op completion).all fun
        | .complete parsed => readsWhole relay.rules (headerText op completion) parsed
        | _ => true) = true
  | _ => True

instance (relay : RelaySession) : ∀ input, Decidable (relay.ReadsRequests input)
  | .complete _ _ => inferInstanceAs (Decidable (_ → _ → _ ∧ _))
  | .timerExpires | .timerHandler | .gracefulClose => .isTrue trivial

/-! ## What is left of a request -/

/-- All of the request but at most `left` bytes of its body has been received. -/
def Covers (received : Bytes) (left : ℕ) : Prop :=
  ∃ startLine lines body bytes,
    Rfc9112.message? received = some (startLine :: lines, body) ∧
      Rfc9112.requestFraming (Rfc9112.fields lines) = .length bytes ∧
      bytes ≤ body.length + left

theorem Covers.append {received : Bytes} {left : ℕ} (covers : Covers received left)
    (data : Bytes) : Covers (received ++ data) (left - data.length) := by
  rcases covers with ⟨startLine, lines, body, bytes, taken, framing, bound⟩
  refine ⟨startLine, lines, body ++ data, bytes, takeSection?_append taken data, framing, ?_⟩
  simp only [List.length_append]
  omega

/-- The client's side while this much of the request's body is still to be pumped. -/
def ClientView.Awaiting (view : ClientView) (body : Option BodySource) : Prop :=
  view.unread = body.isSome ∧ ∃ left, leftToRead body = some left ∧ Covers view.received left

theorem ClientView.Awaiting.consumed {view : ClientView} (awaiting : view.Awaiting none) :
    view.Consumed := by
  rcases awaiting with ⟨unread, left, isLeft, startLine, lines, body, bytes, taken, framing, bound⟩
  simp only [leftToRead, Option.some.injEq] at isLeft
  subst isLeft
  exact ⟨unread, Rfc9112.exists_requestMessage taken framing bound⟩

/-- The body source that the codec chooses covers the length that it takes from the head. -/
theorem leftToRead_requestBody (head : HttpRequestHead) (bodyPrefix : Bytes) :
    ∃ left, leftToRead (requestBody head bodyPrefix) = some left ∧
      head.contentLength.getD 0 ≤ bodyPrefix.length + left := by
  cases declared : head.contentLength with
  | none => exact ⟨0, by simp [requestBody, declared, leftToRead], by simp⟩
  | some bytes =>
    simp only [requestBody, declared, lengthBody, Option.getD_some]
    split
    · split
      · exact ⟨0, rfl, by omega⟩
      · exact ⟨_, rfl, by omega⟩
    · split
      · exact ⟨bytes, rfl, by omega⟩
      · exact ⟨0, rfl, by omega⟩

variable {parsed : ParsedRequest}

/-- A request that the codec has parsed, in a connection that may be used again. -/
theorem covers_of_progress {rules : List Router.Rule} {buf : Bytes} {result : ReadResult}
    {examined : UInt8} (progress : onBlockRead finishRequest buf result = .complete parsed)
    (whole : readsWhole rules (headerText (.readHead .client buf) (.read result examined)) parsed =
      true) (keepAlive : parsed.keepAlive = true) :
    ∃ data left, result = .ok data ∧ leftToRead parsed.body = some left ∧
      Covers (buf ++ data) left ∧
      (parsed.body = none ∨ (dispatch rules parsed.head).forwarded.isSome = true) := by
  rcases onBlockRead_eq_complete progress with ⟨data, block, bodyPrefix, rfl, found, finished⟩
  simp only [readsWhole, headerText, keepAlive, Bool.not_true, Bool.false_or, Bool.and_eq_true,
    Bool.or_eq_true, Option.isNone_iff_eq_none, Option.any_eq_true_iff_get] at whole
  rcases whole with ⟨⟨isSome, bound⟩, forwarded⟩
  rcases Rfc9112.requestLength?_eq_some (Option.eq_some_of_isSome isSome) with
    ⟨startLine, lines, body, taken, framing⟩
  unfold finishRequest at finished
  split at finished
  · simp at finished
  · rename_i head parse
    simp only [Except.ok.injEq] at finished
    subst finished
    rcases message?_of_dropInfix? found (begins_of_parseHeaderBlock parse) with
      ⟨startLine', lines', taken'⟩
    rw [taken, Option.some.injEq, Prod.mk.injEq] at taken'
    rcases taken' with ⟨-, rfl⟩
    rcases leftToRead_requestBody head body with ⟨left, isLeft, enough⟩
    refine ⟨data, left, rfl, isLeft, ?_, forwarded⟩
    refine ⟨startLine, lines, body, _, taken, framing, ?_⟩
    exact (of_decide_eq_true bound).trans enough

/-- A successful read of the client returns something. -/
def ReadsSomething (op : Op) (completion : Completion) : Prop :=
  ∀ data examined capacity, completion = .read (.ok data) examined →
    op.reads = some (.client, capacity) → data ≠ []

variable {completion : Completion}

theorem readsSomething_of_fits {relay : RelaySession} {op : Op}
    (fits : relay.Fits op completion = true) (overTcp : relay.clientCodec = .h1) :
    ReadsSomething op completion := by
  rintro data examined capacity rfl reads
  cases op <;> simp_all [Op.reads, Fits, transport]

variable {body : MessageBody} {bodyStep : BodySource × BodyStep}

/-- A step of a request's body source, seen from the client's side. -/
theorem Advances.awaiting {op : Op} {dest : Peer} {codec : Codec} {next : WriteThen}
    {view : ClientView} (advances : Advances op completion dest codec body next bodyStep)
    (fromClient : body.peer = .client) (succeeds : completion.fails = false)
    (nonempty : ReadsSomething op completion) (awaiting : view.Awaiting (some body.source)) :
    ((arrivals op completion).foldl ClientView.watch view).Awaiting (some bodyStep.1) ∧
      (∀ ec, bodyStep.2 ≠ .deliver (.error ec)) ∧
      (bodyStep.2 = .deliver (.ok []) →
        Covers ((arrivals op completion).foldl ClientView.watch view).received 0) := by
  rcases awaiting with ⟨unread, left, isLeft, covers⟩
  cases advances with
  | headWritten | pieceWritten =>
    rcases leftToRead_asyncReadSome isLeft pumpSize with ⟨stillLeft, noError, whenDone⟩
    refine ⟨⟨unread, left, stillLeft, covers⟩, noError, ?_⟩
    intro ends
    rw [whenDone ends] at covers
    exact covers
  | sourceRead _ _ _ capacity _ result examined =>
    cases result with
    | error ec => simp [Completion.fails] at succeeds
    | ok data =>
      have something : data ≠ [] :=
        nonempty data examined capacity rfl (by simp [Op.reads, fromClient])
      rcases leftToRead_onRead isLeft examined something with ⟨nowLeft, noError, whenDone⟩
      simp only [arrivals, Op.reads, fromClient, List.foldl_cons, List.foldl_nil,
        ClientView.watch]
      refine ⟨⟨unread, _, nowLeft, covers.append data⟩, noError, ?_⟩
      intro ends
      rw [whenDone ends] at covers
      simpa using covers.append data

/-! ## Invariant -/

/-- The view of the client's side at the end of a callback. -/
def seen (relay : RelaySession) (view : ClientView) : ClientView :=
  relay.out.foldl ClientView.watch view

/-- What the client's side looks like while an operation is outstanding. -/
def Accounts (relay : RelaySession) (view : ClientView) : Op → Prop
  | .readHead .client buf => view.received = buf
  | .drainRead | .tunnelRead _ _ | .tunnelWrite _ _ => True
  | .connect _ .reconnected =>
    relay.clientKeepAlive = true → view.Awaiting none ∧ relay.pendingBody = none
  | op => relay.clientKeepAlive = true → view.Awaiting op.requestBody

/-- Entering `request_phase` is only in order once the request has been consumed. -/
def BoundaryCheck (view : ClientView) (action : Action) : Prop :=
  action = .phase .request → view.Consumed

/-- A relay at the end of a callback. -/
structure Bounded (view : ClientView) (relay : RelaySession) : Prop where
  passes : Always ClientView.watch BoundaryCheck view relay.out
  accounts : relay.draining = false → relay.done = false →
    ∀ op ∈ relay.pending, relay.Accounts (relay.seen view) op

/-- A relay in the middle of a callback. -/
structure Running (view : ClientView) (relay : RelaySession) : Prop where
  idle : relay.pending = []
  passes : Always ClientView.watch BoundaryCheck view relay.out

/-- A relay in the middle of a callback, when nothing of the request is left to be read. -/
structure Settled (view : ClientView) (relay : RelaySession) : Prop extends Running view relay where
  awaiting : relay.draining = false → relay.done = false → relay.clientKeepAlive = true →
    (relay.seen view).Awaiting none

section Callbacks

variable {relay after : RelaySession} {view : ClientView}

/-- Actions that change nothing in the view. -/
def Action.inert : Action → Bool
  | .received .client _ | .request _ | .exhausted (.backend _) | .phase .request => false
  | _ => true

/-- Actions that say nothing about the client's side. -/
def Unseen (actions : List Action) : Prop :=
  ∀ action ∈ actions, action.inert = true

theorem watch_of_inert {action : Action} (inert : action.inert = true) :
    view.watch action = view := by
  unfold Action.inert at inert
  split at inert
  · simp at inert
  · simp at inert
  · simp at inert
  · simp at inert
  · unfold ClientView.watch
    split <;> simp_all

variable {actions : List Action}

theorem Unseen.foldl_eq (unseen : Unseen actions) : actions.foldl ClientView.watch view = view := by
  induction actions with
  | nil => rfl
  | cons action actions ih =>
    rw [List.foldl_cons, watch_of_inert (unseen action (by simp))]
    exact ih fun later laterMem => unseen later (by simp [laterMem])

theorem Unseen.always (unseen : Unseen actions) :
    Always ClientView.watch BoundaryCheck view actions := by
  induction actions with
  | nil => exact trivial
  | cons action actions ih =>
    refine ⟨?_, ?_⟩
    · rintro rfl
      have inert := unseen (.phase .request) (by simp)
      simp [Action.inert] at inert
    · rw [watch_of_inert (unseen action (by simp))]
      exact ih fun later laterMem => unseen later (by simp [laterMem])

theorem Unseen.append {first second : List Action} (unseen : Unseen first)
    (unseen' : Unseen second) : Unseen (first ++ second) := by
  intro action actionMem
  rcases List.mem_append.mp actionMem with inFirst | inSecond
  · exact unseen action inFirst
  · exact unseen' action inSecond

theorem unseen_closeActions (relay : RelaySession) : Unseen relay.closeActions := by
  unfold closeActions
  cases relay.backend <;> simp [Unseen, Action.inert]

theorem unseen_finishActions (relay : RelaySession) (keepAlive : Bool) :
    Unseen (relay.finishActions keepAlive) := by
  unfold finishActions
  cases relay.backend <;> cases keepAlive <;> simp [Unseen, Action.inert]

theorem unseen_teardownActions (relay : RelaySession) : Unseen relay.teardownActions := by
  unfold teardownActions
  refine Unseen.append ?_ (List.forall_mem_cons.mpr ⟨rfl, unseen_closeActions relay⟩)
  split <;> simp [Unseen, Action.inert]

theorem unseen_phaseChange (relay : RelaySession) (phase : Phase) (other : phase ≠ .request) :
    Unseen (relay.phaseChange phase) := by
  unfold phaseChange
  split
  · simp [Unseen]
  · cases phase <;> simp_all [Unseen, Action.inert]

theorem unseen_parseAction (peer : Peer) (codec : Codec) : Unseen [parseAction peer codec] := by
  cases codec <;> simp [Unseen, parseAction, Action.inert]

theorem unseen_headAction (dest : Peer) (codec : Codec) (bytes : Bytes) (headers : HeaderList) :
    Unseen [headAction dest codec bytes headers] := by
  cases codec <;> simp [Unseen, headAction, Action.inert]

/-- Actions that say nothing about the client's side leave only the operations to look at. -/
theorem Running.bounded_of_unseen (running : Running view relay)
    (isAfter : after.out = relay.out ++ actions) (unseen : Unseen actions)
    (accounts : after.draining = false → after.done = false →
      ∀ op ∈ after.pending, after.Accounts (relay.seen view) op) : Bounded view after := by
  constructor
  · rw [isAfter]
    exact always_append.mpr ⟨running.passes, unseen.always⟩
  · intro serving notDone op opMem
    rw [seen, isAfter, List.foldl_append, unseen.foldl_eq]
    exact accounts serving notDone op opMem

theorem Running.bounded_await (running : Running view relay) {op : Op}
    (isAfter : after.out = relay.out ++ actions) (unseen : Unseen actions)
    (waits : after.pending = relay.pending ++ [op])
    (accounts : after.draining = false → after.done = false → after.Accounts (relay.seen view) op) :
    Bounded view after := by
  apply running.bounded_of_unseen isAfter unseen
  intro serving notDone op' opMem
  rw [waits, running.idle, List.nil_append, List.mem_singleton] at opMem
  subst opMem
  exact accounts serving notDone

/-- More actions that say nothing about the client's side, and changes to the backend's. -/
theorem Settled.more (settled : Settled view relay) (unseen : Unseen actions)
    (backend : Option TransportStream) (pendingHead : Option HttpRequestHead)
    (pendingBody : Option BodySource) :
    Settled view
      { relay with backend, pendingHead, pendingBody, out := relay.out ++ actions } := by
  refine ⟨⟨settled.idle, always_append.mpr ⟨settled.passes, unseen.always⟩⟩, ?_⟩
  simp only [seen, List.foldl_append, unseen.foldl_eq]
  exact settled.awaiting

theorem Settled.bounded_writeResponse (settled : Settled view relay) (head : HttpResponseHead)
    (body : Option MessageBody) {next : WriteThen} (answers : ∀ r, next ≠ .requestWritten r) :
    Bounded view (relay.writeResponse head body next) := by
  rw [writeResponse, writeMessage_eq]
  apply settled.bounded_await
  · rfl
  · exact unseen_headAction _ _ _ _
  · rfl
  · intro serving running
    cases next with
    | requestWritten r => exact absurd rfl (answers r)
    | _ => exact settled.awaiting serving running

theorem Settled.bounded_writeError (settled : Settled view relay) (status : HttpStatus)
    (message : Bytes) : Bounded view (relay.writeError status message) := by
  apply Settled.bounded_writeResponse
  · exact ⟨⟨settled.idle, settled.passes⟩, settled.awaiting⟩
  · simp

theorem bounded_teardown (passes : Always ClientView.watch BoundaryCheck view relay.out) :
    Bounded view relay.teardown := by
  refine teardown_cases relay (fun running => ?_) fun _ => ?_
  · exact ⟨passes, fun _ notDone => by simp [running] at notDone⟩
  · refine ⟨?_, fun _ notDone => by simp at notDone⟩
    exact always_append.mpr ⟨passes, (unseen_teardownActions relay).always⟩

theorem AfterResponse.bounded (continues : relay.AfterResponse after) (settled : Settled view relay)
    (busy : relay.done = false → relay.phase ≠ .request) : Bounded view after := by
  cases continues with
  | nextRequest idleTimer running keepAlive overTcp serving =>
    have consumed := (settled.awaiting serving running keepAlive).consumed
    have enters : relay.phaseChange .request = [.phase .request] := by
      simp [phaseChange, busy running]
    rw [enters]
    constructor
    · rw [always_append, always_append]
      exact ⟨⟨settled.passes, fun _ => consumed, trivial⟩, by simp [BoundaryCheck]⟩
    · intro _ _ op opMem
      rw [settled.idle, List.nil_append, List.mem_singleton] at opMem
      subst opMem
      simp [Accounts, seen, ClientView.watch]
  | shutDown running last =>
    refine ⟨?_, fun serving => by simp at serving⟩
    exact always_append.mpr ⟨settled.passes, by simp [BoundaryCheck]⟩
  | drain running overQuic serving =>
    refine ⟨always_append.mpr ⟨settled.passes, by simp [BoundaryCheck]⟩, ?_⟩
    intro _ _ op opMem
    rw [settled.idle, List.nil_append, List.mem_singleton] at opMem
    subst opMem
    exact trivial
  | finished done => exact ⟨settled.passes, fun _ running => by simp [done] at running⟩

theorem Settled.answered (settled : Settled view relay) (stream : TransportStream)
    (parsed : ParsedResponse) (idleTimer : IdleTimer) :
    Settled view (relay.answered stream parsed idleTimer) := by
  have unseen : Unseen [.response stream parsed] := by simp [Unseen, Action.inert]
  have more := settled.more unseen relay.backend relay.pendingHead relay.pendingBody
  exact ⟨⟨more.idle, more.passes⟩, more.awaiting⟩

theorem Running.served (running : Running view relay) (parsed : ParsedRequest)
    (idleTimer : IdleTimer) : Running view (relay.served parsed idleTimer) := by
  refine ⟨running.idle, ?_⟩
  have entering : Always ClientView.watch BoundaryCheck (relay.seen view)
      (relay.phaseChange .forward) :=
    (unseen_phaseChange relay .forward (by simp)).always
  simp only [RelaySession.served, always_append]
  exact ⟨⟨running.passes, entering⟩, by simp [BoundaryCheck]⟩

variable {ec : Option ErrorCode}

theorem Resumes.bounded {dest : Peer} {codec : Codec} {body : Option MessageBody} {next : WriteThen}
    (resumes : relay.Resumes next ec after) (settled : Settled view relay)
    (writing : relay.Writing dest codec body next) : Bounded view after := by
  cases resumes with
  | awaitsResponse retryAllowed idleTimer stream isBackend =>
    apply settled.bounded_await
    · exact List.append_assoc _ _ _
    · exact (unseen_phaseChange relay .response (by simp)).append (unseen_parseAction _ _)
    · rfl
    · intro serving running
      cases relay.backendCodec <;> exact settled.awaiting serving running
  | losesBackend retryAllowed idleTimer gone =>
    apply settled.bounded_of_unseen
    · exact List.append_assoc _ _ _
    · exact (unseen_phaseChange relay .response (by simp)).append (by simp [Unseen, Action.inert])
    · simp [settled.idle]
  | reconnects ec pooled bodiless =>
    apply settled.bounded_await
    · exact List.append_assoc _ _ _
    · exact (unseen_closeActions relay).append (by simp [Unseen, Action.inert])
    · rfl
    · intro serving running keepAlive
      exact ⟨settled.awaiting serving running keepAlive, bodiless⟩
  | writeFails retryAllowed ec =>
    apply Settled.bounded_writeError
    exact settled.more (unseen_closeActions relay) _ _ _
  | exchanged keepAlive ec continues =>
    rcases writing with ⟨stream, -, -, -, responding, -⟩
    apply continues.bounded
    · exact settled.more (unseen_finishActions relay keepAlive) _ _ _
    · exact responding.ne_request (by simp)
  | rejected ec continues =>
    rcases writing with ⟨-, -, -, answering, -⟩
    exact continues.bounded settled (answering.ne_request (by simp))
  | bridges next stream fromPool isBackend opens =>
    apply settled.bounded_of_unseen
    · exact List.append_assoc _ _ _
    · exact (unseen_phaseChange relay .bridge (by simp)).append (by simp [Unseen, Action.inert])
    · simp [settled.idle, Accounts]
  | bridgesNothing next fromPool gone opens =>
    apply settled.bounded_of_unseen
    · exact List.append_assoc _ _ _
    · exact (unseen_phaseChange relay .bridge (by simp)).append (by simp [Unseen, Action.inert])
    · simp [settled.idle]
  | bridgeFails next ec opens => exact bounded_teardown settled.passes

/-- Whatever arrives, a request that has been read stays read. -/
theorem ClientView.Awaiting.arrivals (awaiting : view.Awaiting none) (op : Op)
    (completion : Completion) :
    ((RelaySession.arrivals op completion).foldl ClientView.watch view).Awaiting none := by
  rcases awaiting with ⟨unread, left, isLeft, covers⟩
  simp only [leftToRead, Option.some.injEq] at isLeft
  subst isLeft
  unfold RelaySession.arrivals
  split
  · rename_i data examined
    split
    · rename_i peer capacity reads
      cases peer with
      | client =>
        refine ⟨unread, 0, rfl, ?_⟩
        simpa [ClientView.watch] using covers.append data
      | backend stream => exact ⟨unread, 0, rfl, covers⟩
    · exact ⟨unread, 0, rfl, covers⟩
  · exact ⟨unread, 0, rfl, covers⟩

section Messages

variable {op : Op} {completion : Completion} {dest : Peer} {codec : Codec} {next : WriteThen}

theorem requestBody_of_advances (advances : Advances op completion dest codec body next bodyStep) :
    op.requestBody = next.requestBody (some body) := by
  cases advances <;> rfl

/-- While a message is written: what is left of the request behind a step of a body source. -/
theorem Advances.awaiting_requestBody
    (advances : Advances op completion dest codec body next bodyStep) (awaits : relay.Awaits op)
    (succeeds : op.requestBody.isSome = true → completion.fails = false)
    (nonempty : ReadsSomething op completion) (awaiting : view.Awaiting op.requestBody) :
    ((arrivals op completion).foldl ClientView.watch view).Awaiting
        (next.requestBody (some { body with source := bodyStep.1 })) ∧
      (∀ ec, bodyStep.2 = .deliver (.error ec) → next.requestBody (some body) = none) ∧
      (bodyStep.2 = .deliver (.ok []) →
        ((arrivals op completion ++ [Action.exhausted dest]).foldl ClientView.watch view).Awaiting
          none) := by
  have writing := advances.writing_body awaits
  rw [requestBody_of_advances advances] at succeeds awaiting
  have answers : dest = .client → next.requestBody = (fun _ => none) →
      ((arrivals op completion).foldl ClientView.watch view).Awaiting
          (next.requestBody (some { body with source := bodyStep.1 })) ∧
        (∀ ec, bodyStep.2 = .deliver (.error ec) → next.requestBody (some body) = none) ∧
        (bodyStep.2 = .deliver (.ok []) →
          ((arrivals op completion ++ [Action.exhausted dest]).foldl ClientView.watch view).Awaiting
            none) := by
    intro isClient answer
    rw [answer] at awaiting ⊢
    rw [isClient, List.foldl_append]
    have stillAwaiting := awaiting.arrivals op completion
    exact ⟨stillAwaiting, fun _ _ => rfl, fun _ => stillAwaiting⟩
  cases next with
  | requestWritten retryAllowed =>
    rcases writing with ⟨stream, -, rfl, -, -, -, fromClient⟩
    rcases advances.awaiting (fromClient body rfl) (succeeds rfl) nonempty awaiting with
      ⟨stillAwaiting, noError, covers⟩
    refine ⟨stillAwaiting, fun ec fails => absurd fails (noError ec), ?_⟩
    intro ends
    rw [List.foldl_append]
    exact ⟨rfl, 0, rfl, covers ends⟩
  | responseWritten backendKeepAlive =>
    rcases writing with ⟨-, -, isClient, -⟩
    exact answers isClient rfl
  | errorWritten => exact answers writing.2.1 rfl
  | upgraded =>
    rcases writing with ⟨-, -, -, -, -, bodiless⟩
    simp at bodiless
  | tunnelOpened =>
    rcases writing with ⟨-, -, -, -, -, bodiless⟩
    simp at bodiless

theorem Ends.awaiting {shown : List Action} (ends : Ends op completion dest codec next ec shown)
    (awaits : relay.Awaits op) (succeeds : op.requestBody.isSome = true → completion.fails = false)
    (nonempty : ReadsSomething op completion) (awaiting : view.Awaiting op.requestBody) :
    ((arrivals op completion ++ shown).foldl ClientView.watch view).Awaiting none := by
  have unread : completion.fails = true → view.Awaiting none := by
    intro fails
    cases isBody : op.requestBody with
    | none => rwa [isBody] at awaiting
    | some source => simp [fails, isBody] at succeeds
  cases ends with
  | headFails | pieceFails =>
    rw [List.append_nil]
    exact (unread rfl).arrivals _ _
  | headIsAll =>
    have nothing : next.requestBody none = none := by cases next <;> rfl
    simp only [Op.requestBody, nothing] at awaiting
    rw [List.append_nil]
    exact awaiting.arrivals _ _
  | bodyFails advances fails =>
    rcases advances.awaiting_requestBody awaits succeeds nonempty awaiting with ⟨-, noBody, -⟩
    rw [requestBody_of_advances advances, noBody _ fails] at awaiting
    rw [List.append_nil]
    exact awaiting.arrivals _ _
  | bodyEnds advances exhausted =>
    exact (advances.awaiting_requestBody awaits succeeds nonempty awaiting).2.2 exhausted

theorem Advances.accounts (advances : Advances op completion dest codec body next bodyStep)
    (accounts : relay.Accounts view op) (keepAlive : relay.clientKeepAlive = true) :
    view.Awaiting op.requestBody := by
  cases advances <;> exact accounts keepAlive

theorem Ends.accounts {shown : List Action} (ends : Ends op completion dest codec next ec shown)
    (accounts : relay.Accounts view op) (keepAlive : relay.clientKeepAlive = true) :
    view.Awaiting op.requestBody := by
  cases ends with
  | headFails | headIsAll | pieceFails => exact accounts keepAlive
  | bodyFails advances | bodyEnds advances => exact advances.accounts accounts keepAlive

theorem Ends.always {shown : List Action} (ends : Ends op completion dest codec next ec shown) :
    Always ClientView.watch BoundaryCheck view shown := by
  cases ends <;> simp [BoundaryCheck]

end Messages

theorem always_arrivals (op : Op) (completion : Completion) :
    Always ClientView.watch BoundaryCheck view (arrivals op completion) := by
  unfold arrivals
  split
  · split <;> simp [BoundaryCheck]
  · exact trivial

/-- A parsed request, of which the body is still to be read. -/
theorem awaiting_of_request {op : Op}
    (progress : requestProgress op completion = some (.complete parsed)) (awaits : relay.Awaits op)
    (overTcp : relay.clientCodec = .h1) (reads : relay.ReadsRequests (.complete op completion))
    (serving : relay.draining = false) (running : relay.done = false)
    (accounts : relay.Accounts view op) (keepAlive : parsed.keepAlive = true)
    (actions : List Action) (unseen : Unseen actions) :
    ((arrivals op completion ++ actions ++ [Action.request parsed]).foldl ClientView.watch
        view).Awaiting parsed.body ∧
      (parsed.body = none ∨ (dispatch relay.rules parsed.head).forwarded.isSome = true) := by
  have whole := (reads serving running).2
  rw [progress, Option.all_some] at whole
  unfold requestProgress at progress
  split at progress
  · rename_i buf result examined
    simp only [Option.some.injEq] at progress
    rcases covers_of_progress progress whole keepAlive with
      ⟨data, left, rfl, isLeft, covers, forwarded⟩
    refine ⟨?_, forwarded⟩
    have isBuf : view.received = buf := accounts
    simp only [arrivals, Op.reads, List.cons_append, List.nil_append, List.foldl_cons,
      List.foldl_append, unseen.foldl_eq, List.foldl_nil, ClientView.watch, isBuf]
    exact ⟨rfl, left, isLeft, covers⟩
  · simp [Awaits, overTcp] at awaits
  · simp at progress
  · simp at progress

theorem awaiting_of_response {op : Op} {stream : TransportStream}
    {progress : Progress ParsedResponse}
    (responding : responseProgress stream op completion = some progress)
    (accounts : relay.Accounts view op) (keepAlive : relay.clientKeepAlive = true) :
    view.Awaiting none := by
  unfold responseProgress at responding
  split at responding
  · exact accounts keepAlive
  · exact accounts keepAlive
  · exact accounts keepAlive
  · simp at responding

/-- What holds when the callback of an operation starts. -/
structure Serving (view : ClientView) (relay : RelaySession) (op : Op) (completion : Completion) :
    Prop where
  idle : relay.pending = []
  arrived : relay.out = arrivals op completion
  awaits : relay.Awaits op
  nonempty : ReadsSomething op completion
  overTcp : relay.clientCodec = .h1
  reads : relay.ReadsRequests (.complete op completion)
  accounts : relay.draining = false → relay.done = false → relay.Accounts view op

section Serving

variable {op : Op} {completion : Completion}

theorem Serving.begun (serving : Serving view relay op completion) : Running view relay := by
  refine ⟨serving.idle, ?_⟩
  rw [serving.arrived]
  exact always_arrivals op completion

theorem Serving.settled (serving : Serving view relay op completion)
    (awaiting : relay.draining = false → relay.done = false → relay.clientKeepAlive = true →
      view.Awaiting none) : Settled view relay := by
  refine ⟨serving.begun, fun draining running keepAlive => ?_⟩
  rw [seen, serving.arrived]
  exact (awaiting draining running keepAlive).arrivals op completion

theorem Serving.settled_of_response (serving : Serving view relay op completion)
    {stream : TransportStream} {progress : Progress ParsedResponse}
    (responding : responseProgress stream op completion = some progress) : Settled view relay :=
  serving.settled fun draining running =>
    awaiting_of_response responding (serving.accounts draining running)

theorem Serving.settled_of_ends (serving : Serving view relay op completion) {dest : Peer}
    {codec : Codec} {next : WriteThen} {shown : List Action}
    (ends : Ends op completion dest codec next ec shown) :
    Settled view { relay with out := relay.out ++ shown } := by
  refine ⟨⟨serving.idle, always_append.mpr ⟨serving.begun.passes, ends.always⟩⟩, ?_⟩
  intro draining running keepAlive
  rw [seen, serving.arrived]
  exact ends.awaiting serving.awaits ((serving.reads draining running).1 keepAlive)
    serving.nonempty (ends.accounts (serving.accounts draining running) keepAlive)

theorem Serving.awaiting_requestBody (serving : Serving view relay op completion) {dest : Peer}
    {codec : Codec} {next : WriteThen}
    (advances : Advances op completion dest codec body next bodyStep)
    (draining : relay.draining = false) (running : relay.done = false)
    (keepAlive : relay.clientKeepAlive = true) :
    (relay.seen view).Awaiting (next.requestBody (some { body with source := bodyStep.1 })) := by
  rw [seen, serving.arrived]
  exact (advances.awaiting_requestBody serving.awaits ((serving.reads draining running).1 keepAlive)
    serving.nonempty (advances.accounts (serving.accounts draining running) keepAlive)).1

/-- A request is read as a whole unless its connection is about to close. -/
theorem Serving.requested (serving : Serving view relay op completion)
    (progress : requestProgress op completion = some (.complete parsed)) (idleTimer : IdleTimer)
    (draining : relay.draining = false) (running : relay.done = false)
    (keepAlive : parsed.keepAlive = true) :
    ((relay.served parsed idleTimer).seen view).Awaiting parsed.body ∧
      (parsed.body = none ∨ (dispatch relay.rules parsed.head).forwarded.isSome = true) := by
  rw [seen, served, serving.arrived]
  exact awaiting_of_request progress serving.awaits serving.overTcp serving.reads draining running
    (serving.accounts draining running) keepAlive _ (unseen_phaseChange relay .forward (by simp))

theorem Serving.awaiting_none (serving : Serving view relay op completion)
    (progress : requestProgress op completion = some (.complete parsed)) (idleTimer : IdleTimer)
    (unforwarded : (dispatch relay.rules parsed.head).forwarded = none)
    (draining : relay.draining = false) (running : relay.done = false)
    (keepAlive : parsed.keepAlive = true) :
    ((relay.served parsed idleTimer).seen view).Awaiting none := by
  rcases serving.requested progress idleTimer draining running keepAlive with
    ⟨awaiting, bodiless | forwarded⟩
  · rwa [bodiless] at awaiting
  · simp [unforwarded] at forwarded

theorem Serving.bounded_more (serving : Serving view relay op completion) {buf : Bytes}
    (progress : requestProgress op completion = some (.more buf)) :
    Bounded view
      { relay with
        pending := relay.pending ++ [.readHead .client buf]
        out := relay.out ++ [.read .client H1Codec.readSize] } := by
  apply serving.begun.bounded_await rfl (by simp [Unseen, Action.inert]) rfl
  intro draining running
  have isBuf := serving.accounts draining running
  unfold requestProgress at progress
  split at progress
  · simp only [Option.some.injEq] at progress
    rcases onBlockRead_eq_more progress with ⟨data, rfl, rfl⟩
    simp only [Accounts] at isBuf
    simp [Accounts, seen, serving.arrived, arrivals, Op.reads, ClientView.watch, isBuf]
  · simp at progress
  · simp at progress
  · simp at progress

theorem Serving.bounded_connect (serving : Serving view relay op completion)
    {target : ConnectTarget} {next : ConnectThen}
    (progress : requestProgress op completion = some (.complete parsed)) (idleTimer : IdleTimer)
    (connects : connectionFor relay.rules parsed = some (target, next)) :
    Bounded view ((relay.served parsed idleTimer).connect target next) := by
  apply (serving.begun.served _ idleTimer).bounded_await rfl (by simp [Unseen, Action.inert]) rfl
  intro draining running
  unfold connectionFor at connects
  split at connects
  · rename_i target dispatched
    simp only [Option.some.injEq, Prod.mk.injEq] at connects
    rcases connects with ⟨rfl, rfl⟩
    intro keepAlive
    apply serving.awaiting_none progress idleTimer _ draining running keepAlive
    simp [dispatched, Dispatch.forwarded]
  · simp only [Option.some.injEq, Prod.mk.injEq] at connects
    rcases connects with ⟨rfl, rfl⟩
    intro keepAlive
    exact (serving.requested progress idleTimer draining running keepAlive).1
  · simp only [Option.some.injEq, Prod.mk.injEq] at connects
    rcases connects with ⟨rfl, rfl⟩
    intro keepAlive
    exact (serving.requested progress idleTimer draining running keepAlive).1
  · simp at connects

/-- A request that cannot be sent is settled: only a request without a body may fail so. -/
theorem Serving.settled_of_unconnected {target : ConnectTarget} {next : ConnectThen} {ec : ErrorCode}
    (serving : Serving view relay (.connect target next) (.connected (.error ec))) :
    Settled view relay := by
  apply serving.settled
  intro draining running keepAlive
  have awaiting := serving.accounts draining running
  cases next with
  | useBackend head body =>
    have succeeds := (serving.reads draining running).1 keepAlive
    cases body with
    | none => exact awaiting keepAlive
    | some source => simp [Op.requestBody, Completion.fails] at succeeds
  | tunnel => exact awaiting keepAlive
  | reconnected => exact (awaiting keepAlive).1

/-- The callback of an operation leaves the client's side as the next one expects it. -/
theorem Handled.bounded (handled : relay.Handled op completion after)
    (serving : Serving view relay op completion) : Bounded view after := by
  have begun := serving.begun
  cases handled with
  | requestMore progress => exact serving.bounded_more progress
  | requestFails ec progress => exact bounded_teardown begun.passes
  | requestForwarded progress idleTimer connects =>
    exact serving.bounded_connect progress idleTimer connects
  | requestRejected progress idleTimer rejects =>
    apply Settled.bounded_writeError
    refine ⟨begun.served _ idleTimer, ?_⟩
    apply serving.awaiting_none progress idleTimer
    simp [rejects, Dispatch.forwarded]
  | connectFails target next ec message => exact serving.settled_of_unconnected.bounded_writeError _ _
  | requestSent target head body stream endpoint fromPool idleTimer =>
    apply begun.bounded_await rfl ?_ rfl
    · intro draining running keepAlive
      have awaiting := serving.accounts draining running keepAlive
      rw [seen, serving.arrived]
      cases body <;> exact awaiting
    · exact List.forall_mem_cons.mpr ⟨rfl, unseen_headAction _ _ _ _⟩
  | tunnelAccepted target stream endpoint fromPool =>
    apply Settled.bounded_writeResponse
    · have settled := serving.settled fun draining running => serving.accounts draining running
      exact ⟨⟨settled.idle, settled.passes⟩, settled.awaiting⟩
    · simp
  | requestResent target stream endpoint fromPool head kept =>
    apply begun.bounded_await rfl ?_ rfl
    · intro draining running keepAlive
      rcases serving.accounts draining running keepAlive with ⟨awaiting, bodiless⟩
      rw [seen, serving.arrived, bodiless]
      exact awaiting
    · exact List.forall_mem_cons.mpr ⟨rfl, unseen_headAction _ _ _ _⟩
  | bodyAsks advances asks =>
    apply begun.bounded_await rfl (by simp [Unseen, Action.inert]) rfl
    exact serving.awaiting_requestBody advances
  | pieceSent advances delivers nonemptyPiece =>
    apply begun.bounded_await rfl (by simp [Unseen, Action.inert]) rfl
    exact serving.awaiting_requestBody advances
  | finishes ends =>
    have settled := serving.settled_of_ends ends
    apply settled.bounded_await rfl (by simp [Unseen, Action.inert]) rfl
    exact settled.awaiting
  | messageEnds ends resumes =>
    apply resumes.bounded
    · exact (serving.settled_of_ends ends).more (by simp [Unseen, Action.inert]) _ _ _
    · exact (ends.writing serving.awaits).update _ _
  | finished dest next ec resumes =>
    apply resumes.bounded
    · apply (serving.settled ?_).more (by simp [Unseen, Action.inert])
      exact fun draining running => serving.accounts draining running
    · exact Writing.update serving.awaits _ _
  | responseMore progress =>
    apply begun.bounded_await rfl (by simp [Unseen, Action.inert]) rfl
    exact (serving.settled_of_response progress).awaiting
  | responseFails ec progress =>
    apply Settled.bounded_writeError
    exact (serving.settled_of_response progress).more (unseen_closeActions relay) _ _ _
  | upgradeAnswered progress idleTimer upgrades =>
    apply Settled.bounded_writeResponse
    · exact (serving.settled_of_response progress).answered _ _ _
    · simp
  | responseAnswered progress idleTimer plain =>
    apply Settled.bounded_writeResponse
    · exact (serving.settled_of_response progress).answered _ _ _
    · simp
  | drainReads data examined idleTimer running =>
    apply begun.bounded_await rfl (by simp [Unseen, Action.inert]) rfl
    intro _ _
    exact trivial
  | drainEnds completion => exact bounded_teardown begun.passes

end Serving

theorem Carried.bounded {op left : Op} {src dst src' dst' : Peer}
    (carried : relay.Carried src dst op completion after) (isLeft : relay.pending = [left])
    (carries : left.Carries src' dst') (arrived : relay.out = arrivals op completion) :
    Bounded view after := by
  have passes : Always ClientView.watch BoundaryCheck view relay.out :=
    arrived ▸ always_arrivals op completion
  have isTunnel : ∀ seen, relay.Accounts seen left := by
    intro seen
    rcases carries with rfl | rfl <;> exact trivial
  cases carried with
  | forwards data examined nonempty idleTimer running =>
    refine ⟨always_append.mpr ⟨passes, by simp [BoundaryCheck]⟩, ?_⟩
    intro _ _ op opMem
    simp only [isLeft, List.cons_append, List.nil_append, List.mem_cons, List.not_mem_nil,
      or_false] at opMem
    rcases opMem with rfl | rfl
    · exact isTunnel _
    · exact trivial
  | reads idleTimer running =>
    refine ⟨always_append.mpr ⟨passes, by simp [BoundaryCheck]⟩, ?_⟩
    intro _ _ op opMem
    simp only [isLeft, List.cons_append, List.nil_append, List.mem_cons, List.not_mem_nil,
      or_false] at opMem
    rcases opMem with rfl | rfl
    · exact isTunnel _
    · exact trivial
  | ends => exact bounded_teardown passes

theorem Outcome.bounded {input : Input} (outcome : relay.Outcome input after)
    (overTcp : relay.clientCodec = .h1) (reads : relay.ReadsRequests input)
    (accounts : relay.draining = false → relay.done = false →
      ∀ op ∈ relay.pending, relay.Accounts view op) : Bounded view after := by
  cases outcome with
  | exchange waits awaits fits handled =>
    apply handled.bounded
    refine ⟨rfl, rfl, awaits.update _ _ _ _, readsSomething_of_fits fits overTcp, overTcp, reads, ?_⟩
    intro serving running
    exact accounts serving running _ (by simp [waits])
  | tunnel bridging holds directions carries outstanding fits carried =>
    rcases directions with ⟨-, -, left⟩ | ⟨-, -, left⟩
    · exact carried.bounded rfl left rfl
    · exact carried.bounded rfl left rfl
  | ignored done carries outstanding fits =>
    exact ⟨always_arrivals _ _, fun _ running => by simp [done] at running⟩
  | expired kick armed => exact ⟨trivial, accounts⟩
  | timedOut kick expired queued => exact bounded_teardown (by simp [BoundaryCheck])
  | shutsDown running waiting => exact ⟨by simp [BoundaryCheck], fun serving => by simp at serving⟩
  | drains running busy => exact ⟨trivial, fun serving => by simp at serving⟩
  | alreadyClosed done => exact ⟨trivial, fun _ running => by simp [done] at running⟩

end Callbacks

/-- What holds in every state of a run that reads its requests. -/
structure BoundaryInvariant (view : ClientView) (relay : RelaySession) : Prop where
  control : relay.Control
  overTcp : relay.clientCodec = .h1
  accounts : relay.draining = false → relay.done = false →
    ∀ op ∈ relay.pending, relay.Accounts view op

theorem boundaryInvariant_start (rules : List Router.Rule) (idleTimeout : ℕ) :
    BoundaryInvariant {} (start .h1 rules idleTimeout) := by
  refine ⟨control_start .h1 rules idleTimeout, ?_, ?_⟩
  · rcases requestPhase_eq { clientCodec := .h1, rules, idleTimeout } with ⟨idleTimer, entered⟩
    rw [start, entered]
  · rcases requestPhase_eq { clientCodec := .h1, rules, idleTimeout } with ⟨idleTimer, entered⟩
    rw [start, entered]
    simp [parseOp, Accounts]

/--
In every run over a TCP client in which requests that keep the connection open can be read
whole and no operation on the way to reading a body fails, `request_phase` is only entered
again once the body source of the previous request has reported its end and the bytes
received from the client contain all of that request.
-/
theorem request_boundary {rules : List Router.Rule} {idleTimeout : ℕ} {trace : List Action}
    {relay : RelaySession}
    (runs : Runs step ReadsRequests (start .h1 rules idleTimeout) trace relay) :
    RequestBoundary trace := by
  have monitored : Always ClientView.watch BoundaryCheck {} trace ∧
      BoundaryInvariant (trace.foldl ClientView.watch {}) relay := by
    apply runs.monitored (boundaryInvariant_start rules idleTimeout)
    intro view relay input next actions invariant reads taken
    rcases outcome_of_step invariant.control taken with ⟨after, outcome, controlled, rfl, rfl⟩
    have bounded := outcome.bounded invariant.overTcp reads invariant.accounts
    refine ⟨bounded.passes, controlled.update _ _ _, ?_, ?_⟩
    · exact outcome.clientCodec_eq.trans invariant.overTcp
    · exact bounded.accounts
  intro before after split
  exact always_iff_forall.mp monitored.1 before _ after split rfl

/-- A request with a body is forwarded and answered. -/
def forwardedAndAnswered : List Input :=
  let backend : Peer := .backend ⟨1, .TCP⟩
  [.complete (.readHead .client [])
      (.read (.ok (ascii "POST / HTTP/1.1\r\nContent-Length: 2\r\n\r\n")) 0),
    .complete (.connect (.group (ascii "b")) (.useBackend sizedHead (some (.stream 2))))
      (.connected (.ok (⟨1, .TCP⟩, ⟨ascii "b", ascii "h", 80, .TCP⟩, false))),
    .complete (.writeHead backend .h1 (some ⟨.client, .stream 2⟩) (.requestWritten true))
      (.written none),
    .complete (.readBody backend .h1 ⟨.client, .stream 2⟩ 2 (.requestWritten true))
      (.read (.ok (ascii "hi")) 0),
    .complete (.writeBody backend .h1 ⟨.client, .stream 0⟩ (.requestWritten true)) (.written none),
    .complete (.readHead backend []) (.read (.ok (ascii "HTTP/1.1 204 No Content\r\n\r\n")) 0),
    .complete (.writeHead .client .h1 none (.responseWritten true)) (.written none)]

theorem request_boundary_forwardedAndAnswered :
    ∃ trace relay, Runs step ReadsRequests (start .h1 wildcard 30) trace relay ∧
      .phase .request ∈ trace ∧ RequestBoundary trace := by
  have reached : (run step (fun relay input => decide (relay.ReadsRequests input))
      (start .h1 wildcard 30) forwardedAndAnswered).any
        (fun last => decide (.phase .request ∈ last.2)) = true := by
    decide +kernel
  rcases exists_runs_of_run reached with ⟨trace, relay, runs, reenters⟩
  exact ⟨trace, relay, runs, reenters, request_boundary runs⟩

/-- The body of a request that is itself the text of a request. -/
def smuggled : Bytes := ascii "GET /smuggled HTTP/1.1\r\n\r\n"

/-- A request without a route is answered before its body arrives. -/
def answeredUnread : List Input :=
  let message := ascii "no route for host\n"
  [.complete (.readHead .client [])
      (.read (.ok (ascii "POST / HTTP/1.1\r\nContent-Length: 26\r\n\r\n")) 0),
    .complete (.writeHead .client .h1 (some ⟨.client, .buffer message 0⟩) .errorWritten)
      (.written none),
    .complete (.writeBody .client .h1 ⟨.client, .buffer message 18⟩ .errorWritten) (.written none),
    .complete (.readHead .client []) (.read (.ok smuggled) 0)]

/-- A request for this path has been parsed. -/
def Action.asksFor (path : Bytes) : Action → Bool
  | .request parsed => parsed.head.path = path
  | _ => false

theorem Action.exists_of_asksFor {path : Bytes} {action : Action} (asks : action.asksFor path) :
    ∃ parsed, action = .request parsed ∧ parsed.head.path = path := by
  cases action with
  | request parsed => exact ⟨parsed, rfl, of_decide_eq_true asks⟩
  | _ => cases asks

/-- The unread body of a rejected request is parsed as the next request. -/
theorem smuggled_not_requestBoundary :
    smuggled.length = 26 ∧
      ∃ trace relay, Runs step anyInput (start .h1 [] 30) trace relay ∧
        ¬RequestBoundary trace ∧
        ∃ parsed, .request parsed ∈ trace ∧ parsed.head.path = ascii "/smuggled" := by
  let unreadCheck : ClientView → Action → Prop := fun view action =>
    action = .phase .request → view.unread = false
  have reached : (run step (fun _ _ => true) (start .h1 [] 30) answeredUnread).any
      (fun last => decide (¬Always ClientView.watch unreadCheck {} last.2 ∧
        ∃ action ∈ last.2, action.asksFor (ascii "/smuggled") = true)) = true := by
    decide +kernel
  rcases exists_runs_any reached with ⟨trace, relay, runs, fails, action, actionMem, isSmuggled⟩
  refine ⟨by decide, trace, relay, runs, ?_, ?_⟩
  · intro boundary
    apply fails
    rw [always_iff_forall]
    rintro before action after split rfl
    exact (boundary before after split).1
  · rcases action.exists_of_asksFor isSmuggled with ⟨parsed, rfl, isPath⟩
    exact ⟨parsed, actionMem, isPath⟩

end RelaySession

end ReverseProxy
