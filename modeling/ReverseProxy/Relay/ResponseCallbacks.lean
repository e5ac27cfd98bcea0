import ReverseProxy.Relay.ResponseView

/-!
# Callbacks and the response of an exchange

What a client has been sent while the relay waits for an operation, and what the callbacks
of the relay make of it.  A callback adds actions and operations to the relay; `Framed` is
the invariant at its end and `Answering` the one on the way.
-/

namespace ReverseProxy

open Machine Text H1Codec

namespace RelaySession

/-! ## Invariant -/

/-- The view of the client's side at the end of a callback. -/
def shown (relay : RelaySession) (view : ResponseView) : ResponseView :=
  relay.out.foldl ResponseView.watch view

/-- A request has been parsed, and nothing has been written yet. -/
def Unanswered (relay : RelaySession) (view : ResponseView) : Prop :=
  view.stage = .answering ∧ view.written = [] ∧ view.delivered = [] ∧
    view.method = relay.requestMethod

/-- A body of known length comes from a TCP stream. -/
def Wired (body : Option MessageBody) : Prop :=
  ∀ part ∈ body, ∀ remaining, part.source = .stream remaining →
    ∃ stream, part.peer = .backend stream ∧ stream.protocol = .TCP

/-- What the client has been sent while an operation is outstanding. -/
def Frames (relay : RelaySession) (view : ResponseView) : Op → Prop
  | .readHead .client _ | .takeHeaders .client => view.stage = .waiting
  | .drainRead => True
  | .tunnelRead _ _ | .tunnelWrite _ _ => relay.done = false → view.stage = .tunnel
  | .writeHead .client _ body next =>
    Answers relay.Closing view next (body.map MessageBody.source) ∧ Wired body
  | .readBody .client _ body _ next =>
    Answers relay.Closing view next (some body.source) ∧ Wired (some body) ∧
      ∀ buffered readPos, body.source ≠ .buffer buffered readPos
  | .writeBody .client _ body next =>
    Answers relay.Closing view next (some body.source) ∧ Wired (some body)
  | .finish .client _ => True
  | .connect _ next =>
    relay.Unanswered view ∧ (next = .tunnel → relay.requestMethod = ascii "CONNECT")
  | _ => relay.Unanswered view

/-- A relay at the end of a callback. -/
structure Framed (view : ResponseView) (relay : RelaySession) : Prop where
  passes : Always ResponseView.watch ResponseCheck view relay.out
  frames : ∀ op ∈ relay.pending, relay.Frames (relay.shown view) op
  doneShut : relay.done = true → (relay.shown view).shut = true
  lastShut : (relay.shown view).stage = .last → (relay.shown view).shut = true

/-- A relay in the middle of a callback. -/
structure Answering (view : ResponseView) (relay : RelaySession) : Prop where
  idle : relay.pending = []
  overTcp : relay.clientCodec = .h1
  passes : Always ResponseView.watch ResponseCheck view relay.out
  doneShut : relay.done = true → (relay.shown view).shut = true

/-- A response has been written as far as it goes. -/
def Replied (relay : RelaySession) (view : ResponseView) : Prop :=
  view.stage = .answered ∨ view.stage = .last ∧ relay.Closing

section Callbacks

variable {relay after : RelaySession} {view : ResponseView}

theorem ignored_closeActions (relay : RelaySession) :
    Ignored ResponseView.watch ResponseCheck relay.closeActions := by
  intro view
  unfold closeActions
  cases relay.backend <;> simp [ResponseCheck, ResponseView.watch]

theorem ignored_finishActions (relay : RelaySession) (keepAlive : Bool) :
    Ignored ResponseView.watch ResponseCheck (relay.finishActions keepAlive) := by
  intro view
  unfold finishActions
  cases relay.backend <;> cases keepAlive <;> simp [ResponseCheck, ResponseView.watch]

theorem ignored_phaseChange (relay : RelaySession) {phase : Phase}
    (other : phase ≠ .request ∧ phase ≠ .bridge) :
    Ignored ResponseView.watch ResponseCheck (relay.phaseChange phase) := by
  intro view
  unfold phaseChange
  split
  · simp
  · cases phase <;> simp_all [ResponseCheck, ResponseView.watch]

variable {actions : List Action}

theorem shut_foldl (shut : view.shut = true) :
    (actions.foldl ResponseView.watch view).shut = true := by
  induction actions generalizing view with
  | nil => exact shut
  | cons action actions ih =>
    apply ih
    unfold ResponseView.watch
    split <;> simp [shut]

/-- The actions at the end of a callback, and the operations that they start. -/
theorem Answering.framed_all (answering : Answering view relay)
    (isAfter : after.out = relay.out ++ actions) (sameDone : after.done = relay.done)
    (passes : Always ResponseView.watch ResponseCheck (relay.shown view) actions)
    (frames : ∀ op ∈ after.pending,
      after.Frames (actions.foldl ResponseView.watch (relay.shown view)) op)
    (going : (actions.foldl ResponseView.watch (relay.shown view)).stage ≠ .last) :
    Framed view after := by
  have isShown : after.shown view = actions.foldl ResponseView.watch (relay.shown view) := by
    rw [shown, isAfter, List.foldl_append]
    rfl
  refine ⟨?_, ?_, ?_, ?_⟩
  · rw [isAfter]
    exact always_append.mpr ⟨answering.passes, passes⟩
  · rw [isShown]
    exact frames
  · rw [isShown, sameDone]
    exact fun done => shut_foldl (answering.doneShut done)
  · rw [isShown]
    exact fun isLast => absurd isLast going

theorem Answering.framed (answering : Answering view relay) {op : Op}
    (isAfter : after.out = relay.out ++ actions) (waits : after.pending = relay.pending ++ [op])
    (sameDone : after.done = relay.done)
    (passes : Always ResponseView.watch ResponseCheck (relay.shown view) actions)
    (frames : after.Frames (actions.foldl ResponseView.watch (relay.shown view)) op)
    (going : (actions.foldl ResponseView.watch (relay.shown view)).stage ≠ .last) :
    Framed view after := by
  apply answering.framed_all isAfter sameDone passes ?_ going
  rw [waits, answering.idle]
  simpa using frames

/-- Actions that the client does not see, and the operation that they start. -/
theorem Answering.framed_await (answering : Answering view relay) {op : Op}
    (isAfter : after.out = relay.out ++ actions)
    (ignored : Ignored ResponseView.watch ResponseCheck actions)
    (waits : after.pending = relay.pending ++ [op]) (sameDone : after.done = relay.done)
    (frames : after.Frames (relay.shown view) op) (going : (relay.shown view).stage ≠ .last) :
    Framed view after := by
  apply answering.framed isAfter waits sameDone (ignored _).1
  · rw [(ignored _).2]
    exact frames
  · rw [(ignored _).2]
    exact going

theorem Answering.framed_unanswered (answering : Answering view relay)
    (clean : relay.Unanswered (relay.shown view)) {op : Op}
    (isAfter : after.out = relay.out ++ actions)
    (ignored : Ignored ResponseView.watch ResponseCheck actions)
    (waits : after.pending = relay.pending ++ [op]) (sameDone : after.done = relay.done)
    (frames : after.Frames (relay.shown view) op) : Framed view after := by
  apply answering.framed_await isAfter ignored waits sameDone frames
  simp [clean.1]

/-- More actions that the client does not see, and changes on the backend's side. -/
theorem Answering.more (answering : Answering view relay)
    (ignored : Ignored ResponseView.watch ResponseCheck actions)
    (backend : Option TransportStream) (pendingHead : Option HttpRequestHead)
    (pendingBody : Option BodySource) :
    Answering view { relay with backend, pendingHead, pendingBody, out := relay.out ++ actions } ∧
      shown { relay with backend, pendingHead, pendingBody, out := relay.out ++ actions } view =
        relay.shown view := by
  have same : shown { relay with backend, pendingHead, pendingBody, out := relay.out ++ actions }
      view = relay.shown view := by
    simp only [shown, List.foldl_append, (ignored _).2]
  refine ⟨⟨answering.idle, answering.overTcp, ?_, ?_⟩, same⟩
  · exact always_append.mpr ⟨answering.passes, (ignored _).1⟩
  · rw [same]
    exact answering.doneShut

theorem Answers.update {closing closing' : Prop} {next : WriteThen} {body : Option BodySource}
    (answers : Answers closing view next body) (later : closing → closing') (shut : Bool) :
    Answers closing' { view with shut } next body := by
  rcases answers with ⟨answering, status, fields, taken, framed, final, last⟩
  refine ⟨answering, status, fields, taken, framed, final, ?_⟩
  exact fun isAnswer => ⟨(last isAnswer).1, fun untilClose => later ((last isAnswer).2 untilClose)⟩

/-- What the client has been sent does not depend on how the relay goes on to its end. -/
theorem Frames.update {op : Op} (frames : relay.Frames view op)
    (closing : relay.Closing → after.Closing) (sameMethod : after.requestMethod = relay.requestMethod)
    (running : after.done = false → relay.done = false) (shut : Bool) :
    after.Frames { view with shut } op := by
  have unanswered : relay.Unanswered view → after.Unanswered { view with shut } := by
    rintro ⟨isAnswering, nothing, undelivered, isMethod⟩
    exact ⟨isAnswering, nothing, undelivered, isMethod.trans sameMethod.symm⟩
  cases op with
  | readHead peer buf =>
    cases peer with
    | client => exact frames
    | backend stream => exact unanswered frames
  | takeHeaders peer =>
    cases peer with
    | client => exact frames
    | backend stream => exact unanswered frames
  | connect target next =>
    exact ⟨unanswered frames.1, fun isTunnel => sameMethod.trans (frames.2 isTunnel)⟩
  | writeHead dest codec body next =>
    cases dest with
    | client => exact ⟨frames.1.update closing shut, frames.2⟩
    | backend stream => exact unanswered frames
  | readBody dest codec body capacity next =>
    cases dest with
    | client => exact ⟨frames.1.update closing shut, frames.2⟩
    | backend stream => exact unanswered frames
  | writeBody dest codec body next =>
    cases dest with
    | client => exact ⟨frames.1.update closing shut, frames.2⟩
    | backend stream => exact unanswered frames
  | finish dest next =>
    cases dest with
    | client => exact trivial
    | backend stream => exact unanswered frames
  | tunnelRead src dst => exact fun notDone => frames (running notDone)
  | tunnelWrite src dst => exact fun notDone => frames (running notDone)
  | drainRead => exact trivial

theorem framed_teardown (passes : Always ResponseView.watch ResponseCheck view relay.out)
    (doneShut : relay.done = true → (relay.shown view).shut = true)
    (frames : ∀ op ∈ relay.pending, relay.Frames (relay.shown view) op) :
    Framed view relay.teardown := by
  cases running : relay.done with
  | true =>
    rw [teardown_of_done _ running]
    have shut := doneShut running
    exact ⟨passes, frames, fun _ => shut, fun _ => shut⟩
  | false =>
    have closing := ignored_closeActions relay
    have enters : Ignored ResponseView.watch ResponseCheck
        (if relay.phase = .closed then [] else [.phase .closed]) := by
      intro view
      split <;> simp [ResponseCheck, ResponseView.watch]
    have isShown : relay.teardown.shown view = { relay.shown view with shut := true } := by
      rw [teardown_eq _ running]
      simp only [shown, teardownActions, List.foldl_append, List.foldl_cons, (enters _).2,
        (closing _).2, ResponseView.watch]
    have shut : (relay.teardown.shown view).shut = true := by rw [isShown]
    refine ⟨?_, ?_, fun _ => shut, fun _ => shut⟩
    · rw [teardown_eq _ running]
      simp only [teardownActions, always_append, always_cons]
      exact ⟨passes, (enters _).1, trivial, (closing _).1⟩
    · rw [isShown, teardown_eq _ running]
      intro op opMem
      apply (frames op opMem).update
      · exact fun _ => .inr (.inr rfl)
      · rfl
      · simp

theorem Answering.framed_teardown (answering : Answering view relay) :
    Framed view relay.teardown := by
  apply RelaySession.framed_teardown answering.passes answering.doneShut
  simp [answering.idle]

theorem Answering.framed_writeResponse (answering : Answering view relay)
    (unanswered : relay.Unanswered (relay.shown view)) {head : HttpResponseHead}
    {body : Option MessageBody} {next : WriteThen}
    (answers : Answers relay.Closing { relay.shown view with written := responseBytes head } next
      (body.map MessageBody.source))
    (wired : Wired body) : Framed view (relay.writeResponse head body next) := by
  rcases unanswered with ⟨isAnswering, nothing, -, -⟩
  have isWrite : headAction .client relay.clientCodec (responseBytes head)
      (H3Codec.responseHeaderList head) = .write .client (responseBytes head) := by
    rw [answering.overTcp]
    rfl
  have written : [Action.write .client (responseBytes head)].foldl ResponseView.watch
      (relay.shown view) = { relay.shown view with written := responseBytes head } := by
    simp [ResponseView.watch, nothing]
  rw [writeResponse, writeMessage_eq, isWrite]
  apply answering.framed
  · rfl
  · rfl
  · rfl
  · exact ⟨.inl isAnswering, trivial⟩
  · rw [written]
    exact ⟨answers, wired⟩
  · rw [written, isAnswering]
    simp

theorem Answering.framed_writeError (answering : Answering view relay)
    (unanswered : relay.Unanswered (relay.shown view)) (body : relay.requestMethod ≠ ascii "HEAD")
    {status : HttpStatus} (failure : status ≠ .ok) (message : Bytes) :
    Framed view (relay.writeError status message) := by
  rcases responseHead?_errorHead status message with ⟨fields, taken, encoding, length⟩
  rcases unanswered with ⟨isAnswering, nothing, undelivered, isMethod⟩
  have framing : Rfc9112.responseFraming (relay.shown view).method status.code.toNat fields =
      .length message.length :=
    responseFraming_errorHead failure (isMethod ▸ body) encoding length
  have answers : Answers relay.Closing
      { relay.shown view with written := responseBytes (errorHead status message) } .errorWritten
      (some (.buffer message 0)) := by
    refine ⟨isAnswering, status.code.toNat, fields, ?_, .inr ?_, ?_, ?_⟩
    · simpa [undelivered] using taken
    · simp [framing, ResponseView.Owes, undelivered]
    · cases status <;> decide
    · intro _
      refine ⟨by cases status <;> decide, ?_⟩
      simp [framing]
  apply Answering.framed_writeResponse
  · exact ⟨answering.idle, answering.overTcp, answering.passes, answering.doneShut⟩
  · exact ⟨isAnswering, nothing, undelivered, isMethod⟩
  · exact answers
  · rintro part ⟨⟩ remaining
    simp

theorem AfterResponse.framed (continues : relay.AfterResponse after)
    (answering : Answering view relay) (replied : relay.Replied (relay.shown view))
    (busy : relay.done = false → relay.phase ≠ .request) : Framed view after := by
  cases continues with
  | nextRequest idleTimer running keepAlive overTcp serving =>
    have isAnswered : (relay.shown view).stage = .answered := by
      rcases replied with isAnswered | ⟨-, closing⟩
      · exact isAnswered
      · simp [Closing, keepAlive, running, serving] at closing
    have enters : relay.phaseChange .request = [.phase .request] := by
      simp [phaseChange, busy running]
    apply answering.framed
    · exact List.append_assoc _ _ _
    · rfl
    · rfl
    · rw [enters]
      exact ⟨isAnswered, trivial, trivial⟩
    · rw [enters]
      rfl
    · rw [enters]
      simp [ResponseView.watch]
  | shutDown running last =>
    refine ⟨?_, ?_, ?_, ?_⟩
    · exact always_append.mpr ⟨answering.passes, trivial, trivial, trivial⟩
    · simp [answering.idle, Frames]
    · intro _
      simp [shown, ResponseView.watch]
    · intro _
      simp [shown, ResponseView.watch]
  | drain running overQuic serving => simp [answering.overTcp] at overQuic
  | finished done =>
    have shut := answering.doneShut done
    exact ⟨answering.passes, by simp [answering.idle], fun _ => shut, fun _ => shut⟩

theorem Answering.framed_bridge (answering : Answering view relay) {phases : List Phase}
    (inPhase : relay.At phases) (others : .bridge ∉ phases)
    (isAfter : after.out = relay.out ++ relay.phaseChange .bridge ++ actions)
    (sameDone : after.done = relay.done)
    (ignored : Ignored ResponseView.watch ResponseCheck actions)
    (tunnels : ∀ op ∈ after.pending, ∃ src dst, op.Carries src dst) : Framed view after := by
  have changing : Always ResponseView.watch ResponseCheck (relay.shown view)
      (relay.phaseChange .bridge) := by
    unfold phaseChange
    split <;> simp [ResponseCheck]
  have isTunnel : relay.done = false → (after.shown view).stage = .tunnel := by
    intro running
    have enters : relay.phaseChange .bridge = [.phase .bridge] := by
      rw [phaseChange, if_neg]
      intro bridging
      rcases inPhase with done | isPhase
      · simp [running] at done
      · exact others (bridging ▸ isPhase)
    simp only [shown, isAfter, List.foldl_append, (ignored _).2, enters, List.foldl_cons,
      List.foldl_nil, ResponseView.watch]
  have doneShut : after.done = true → (after.shown view).shut = true := by
    rw [shown, isAfter, List.append_assoc, List.foldl_append, sameDone]
    exact fun done => shut_foldl (answering.doneShut done)
  refine ⟨?_, ?_, doneShut, ?_⟩
  · rw [isAfter, always_append, always_append]
    exact ⟨⟨answering.passes, changing⟩, (ignored _).1⟩
  · intro op opMem
    rcases tunnels op opMem with ⟨src, dst, rfl | rfl⟩
    · exact fun running => isTunnel (sameDone ▸ running)
    · exact fun running => isTunnel (sameDone ▸ running)
  · intro isLast
    cases running : relay.done with
    | true => exact doneShut (sameDone.trans running)
    | false => simp [isTunnel running] at isLast

theorem Writing.at_of_opens {dest : Peer} {codec : Codec} {body : Option MessageBody}
    {next : WriteThen} (writing : relay.Writing dest codec body next)
    (opens : next = .upgraded ∨ next = .tunnelOpened) : relay.At [.forward, .response] := by
  rcases opens with rfl | rfl
  · rcases writing with ⟨-, -, -, -, responding, -⟩
    exact responding.mono (by simp)
  · rcases writing with ⟨-, -, -, -, forwarding, -⟩
    exact forwarding.mono (by simp)

/-- The callback of a message, once the trace shows that the message is done. -/
theorem Resumes.framed {dest : Peer} {codec : Codec} {body : Option MessageBody}
    {next : WriteThen} {ec : Option ErrorCode} (resumes : relay.Resumes next ec after)
    (writing : relay.Writing dest codec body next) (answering : Answering view relay)
    (unanswered : ∀ retryAllowed, next = .requestWritten retryAllowed →
      relay.Unanswered (relay.shown view))
    (notHead : ∀ retryAllowed, next = .requestWritten retryAllowed → ec ≠ none →
      ¬(retryAllowed = true ∧ relay.backendFromPool = true ∧ relay.pendingBody = none) →
        relay.requestMethod ≠ ascii "HEAD")
    (replied : next.answers = true → relay.Replied (relay.shown view)) : Framed view after := by
  cases resumes with
  | awaitsResponse retryAllowed idleTimer stream isBackend =>
    have clean := unanswered retryAllowed rfl
    apply answering.framed_await
    · exact List.append_assoc _ _ _
    · apply (ignored_phaseChange relay (by simp)).append
      intro view
      cases relay.backendCodec <;> simp [parseAction, ResponseCheck, ResponseView.watch]
    · rfl
    · rfl
    · cases relay.backendCodec <;> exact clean
    · simp [clean.1]
  | losesBackend retryAllowed idleTimer gone =>
    have clean := unanswered retryAllowed rfl
    have ignored : Ignored ResponseView.watch ResponseCheck
        (relay.phaseChange .response ++ [.nullBackend]) := by
      apply (ignored_phaseChange relay (by simp)).append
      simp [Ignored, ResponseCheck, ResponseView.watch]
    apply answering.framed_all
    · exact List.append_assoc _ _ _
    · rfl
    · exact (ignored _).1
    · simp [answering.idle]
    · rw [(ignored _).2, clean.1]
      simp
  | reconnects ec pooled bodiless =>
    have clean := unanswered true rfl
    apply answering.framed_await
    · exact List.append_assoc _ _ _
    · apply (ignored_closeActions relay).append
      simp [Ignored, ResponseCheck, ResponseView.watch]
    · rfl
    · rfl
    · exact ⟨clean, by simp⟩
    · simp [clean.1]
  | writeFails retryAllowed ec final =>
    have clean := unanswered retryAllowed rfl
    rcases answering.more (ignored_closeActions relay) none relay.pendingHead relay.pendingBody
      with ⟨closed, same⟩
    apply closed.framed_writeError
    · rw [same]
      exact clean
    · exact notHead retryAllowed rfl (by simp) final
    · simp
  | exchanged keepAlive ec continues =>
    rcases writing with ⟨stream, -, -, -, responding, -⟩
    rcases answering.more (ignored_finishActions relay keepAlive) none none none with
      ⟨finished, same⟩
    apply continues.framed finished
    · rw [same]
      exact replied rfl
    · exact responding.ne_request (by simp)
  | rejected ec continues =>
    rcases writing with ⟨-, -, -, late, -⟩
    exact continues.framed answering (replied rfl) (late.ne_request (by simp))
  | bridges next stream fromPool isBackend opens =>
    apply answering.framed_bridge (writing.at_of_opens opens) (by simp)
    · rfl
    · rfl
    · simp [Ignored, ResponseCheck, ResponseView.watch]
    · simp only [answering.idle, List.nil_append, List.mem_cons, List.not_mem_nil, or_false,
        forall_eq_or_imp, forall_eq]
      exact ⟨⟨_, _, .inl rfl⟩, _, _, .inl rfl⟩
  | bridgesNothing next fromPool gone opens =>
    apply answering.framed_bridge (writing.at_of_opens opens) (by simp)
    · rfl
    · rfl
    · simp [Ignored, ResponseCheck, ResponseView.watch]
    · simp [answering.idle]
  | bridgeFails next ec opens => exact answering.framed_teardown

end Callbacks

end RelaySession

end ReverseProxy
