import ReverseProxy.Relay.Steps

/-!
# The streams of a relay

A relay reaches a backend stream through `backend_` and through the operations that it
waits for.  A step reaches no other stream than these and the one that a connection brings
(`Outcome.within`).  It asks the pool for at most one thing, and a stream that it releases is out
of its reach afterwards (`Outcome.deals`).
-/

namespace ReverseProxy

open Text

/-- The backend stream of a peer. -/
def Peer.streams : Peer → List TransportStream
  | .client => []
  | .backend stream => [stream]

namespace RelaySession

/-- The streams that an outstanding operation uses, now or later. -/
def Op.streams : Op → List TransportStream
  | .readHead peer _ | .takeHeaders peer => peer.streams
  | .connect _ _ | .drainRead => []
  | .writeHead dest _ body _ => dest.streams ++ body.toList.flatMap fun part => part.peer.streams
  | .readBody dest _ body _ _ | .writeBody dest _ body _ => dest.streams ++ body.peer.streams
  | .finish dest _ => dest.streams
  | .tunnelRead src dst | .tunnelWrite src dst => src.streams ++ dst.streams

/-- The streams that an action reads, writes a request to or gives away. -/
def Action.streams : Action → List TransportStream
  | .received peer _ => peer.streams
  | .requestTo stream _ | .release _ stream => [stream]
  | _ => []

/-- The streams that the pool hands over. -/
def Completion.streams : Completion → List TransportStream
  | .connected (.ok (stream, _)) => [stream]
  | _ => []

/-- The streams that come with an input. -/
def Input.streams : Input → List TransportStream
  | .complete _ completion => completion.streams
  | _ => []

/-- The relay can still use the stream. -/
def Reaches (relay : RelaySession) (stream : TransportStream) : Prop :=
  relay.backend = some stream ∨ ∃ op ∈ relay.pending, stream ∈ op.streams

/-- All streams of a relay and of what it has done in a step are of this kind. -/
structure Within (reach : TransportStream → Prop) (relay : RelaySession) : Prop where
  backend : ∀ stream, relay.backend = some stream → reach stream
  pending : ∀ op ∈ relay.pending, ∀ stream ∈ op.streams, reach stream
  out : ∀ action ∈ relay.out, ∀ stream ∈ action.streams, reach stream

variable {op : Op} {next : WriteThen} {completion : Completion} {ec : Option ErrorCode}
  {stream : TransportStream}

section Within

variable {relay after : RelaySession} {reach : TransportStream → Prop}

theorem Within.extend (within : relay.Within reach) {ops : List Op} {actions : List Action}
    (isPending : after.pending = relay.pending ++ ops) (isOut : after.out = relay.out ++ actions)
    (backend : ∀ stream, after.backend = some stream → reach stream)
    (newOps : ∀ op ∈ ops, ∀ stream ∈ op.streams, reach stream)
    (newActions : ∀ action ∈ actions, ∀ stream ∈ action.streams, reach stream) :
    after.Within reach := by
  refine ⟨backend, ?_, ?_⟩
  · intro op opMem
    rw [isPending, List.mem_append] at opMem
    exact opMem.elim (within.pending op) (newOps op)
  · intro action actionMem
    rw [isOut, List.mem_append] at actionMem
    exact actionMem.elim (within.out action) (newActions action)

/-- Actions that use no stream and do not ask for one. -/
def Streamless (actions : List Action) : Prop :=
  ∀ action ∈ actions, action.streams = [] ∧ (∀ target, action ≠ .connect target)

theorem Streamless.append {first second : List Action} (streamless : Streamless first)
    (streamless' : Streamless second) : Streamless (first ++ second) := by
  intro action actionMem
  rcases List.mem_append.mp actionMem with inFirst | inSecond
  · exact streamless action inFirst
  · exact streamless' action inSecond

theorem streamless_closeActions (relay : RelaySession) : Streamless relay.closeActions := by
  unfold closeActions
  cases relay.backend <;> simp [Streamless, Action.streams]

theorem streamless_phaseChange (relay : RelaySession) (phase : Phase) :
    Streamless (relay.phaseChange phase) := by
  unfold phaseChange
  split <;> simp [Streamless, Action.streams]

theorem streamless_teardownActions (relay : RelaySession) : Streamless relay.teardownActions := by
  have closes := streamless_closeActions relay
  unfold teardownActions
  refine Streamless.append ?_ (List.forall_mem_cons.mpr ⟨by simp [Action.streams], closes⟩)
  exact streamless_phaseChange relay .closed

theorem streamless_parseAction (peer : Peer) (codec : Codec) : Streamless [parseAction peer codec] := by
  cases codec <;> simp [Streamless, parseAction, Action.streams]

theorem streamless_headAction (dest : Peer) (codec : Codec) (bytes : Bytes) (headers : HeaderList) :
    Streamless [headAction dest codec bytes headers] := by
  cases codec <;> simp [Streamless, headAction, Action.streams]

theorem Streamless.within {actions : List Action} (streamless : Streamless actions) :
    ∀ action ∈ actions, ∀ stream ∈ action.streams, reach stream := by
  intro action actionMem stream streamMem
  simp [(streamless action actionMem).1] at streamMem

theorem Within.teardown (within : relay.Within reach) : relay.teardown.Within reach := by
  refine teardown_cases relay (fun _ => ?_) fun _ => ?_
  · exact within
  · refine within.extend (List.append_nil _).symm rfl ?_ ?_ ?_
    · simp
    · simp
    · exact (streamless_teardownActions relay).within

theorem Within.writeResponse (within : relay.Within reach) (head : HttpResponseHead)
    (body : Option MessageBody) (next : WriteThen)
    (fromBody : ∀ part ∈ body, ∀ stream ∈ part.peer.streams, reach stream) :
    (relay.writeResponse head body next).Within reach := by
  rw [RelaySession.writeResponse, writeMessage_eq]
  refine within.extend rfl rfl ?_ ?_ ?_
  · exact within.backend
  · intro op opMem stream streamMem
    rw [List.mem_singleton] at opMem
    subst opMem
    simp only [Op.streams, Peer.streams, List.nil_append, List.mem_flatMap,
      Option.mem_toList] at streamMem
    rcases streamMem with ⟨part, partMem, isStream⟩
    exact fromBody part partMem stream isStream
  · exact (streamless_headAction _ _ _ _).within

theorem Within.writeError (within : relay.Within reach) (status : HttpStatus)
    (message : Bytes) : (relay.writeError status message).Within reach := by
  apply Within.writeResponse
  · exact ⟨within.backend, within.pending, within.out⟩
  · simp [Peer.streams]

theorem Within.closed (within : relay.Within reach) :
    Within reach { relay with backend := none, out := relay.out ++ relay.closeActions } := by
  refine within.extend (List.append_nil _).symm rfl ?_ ?_ ?_
  · simp
  · simp
  · exact (streamless_closeActions relay).within

theorem AfterResponse.within (continues : relay.AfterResponse after)
    (within : relay.Within reach) : after.Within reach := by
  cases continues with
  | nextRequest idleTimer running keepAlive overTcp serving =>
    refine within.extend rfl (List.append_assoc _ _ _) ?_ ?_ ?_
    · exact within.backend
    · simp [Op.streams, Peer.streams]
    · apply Streamless.within
      exact (streamless_phaseChange relay .request).append (streamless_parseAction .client .h1)
  | shutDown running last =>
    refine within.extend rfl rfl ?_ ?_ ?_
    · exact within.backend
    · simp [Op.streams]
    · simp [Action.streams]
  | drain running overQuic serving =>
    refine within.extend rfl rfl ?_ ?_ ?_
    · exact within.backend
    · simp [Op.streams]
    · simp [Action.streams]
  | finished done => exact within

theorem within_finishActions (within : relay.Within reach) (keepAlive : Bool) :
    ∀ action ∈ relay.finishActions keepAlive, ∀ stream ∈ action.streams, reach stream := by
  have backend := within.backend
  unfold finishActions
  cases connected : relay.backend with
  | none => simp
  | some stream => cases keepAlive <;> simp_all [Action.streams]

theorem streams_parseOp (stream : TransportStream) (codec : Codec) :
    (parseOp (.backend stream) codec).streams = [stream] := by
  cases codec <;> rfl

theorem Resumes.within (resumes : relay.Resumes next ec after) (within : relay.Within reach) :
    after.Within reach := by
  cases resumes with
  | awaitsResponse retryAllowed idleTimer stream isBackend =>
    refine within.extend rfl (List.append_assoc _ _ _) ?_ ?_ ?_
    · exact within.backend
    · simpa [streams_parseOp] using within.backend stream isBackend
    · apply Streamless.within
      exact (streamless_phaseChange relay .response).append (streamless_parseAction _ _)
  | losesBackend retryAllowed idleTimer gone =>
    refine within.extend (List.append_nil _).symm (List.append_assoc _ _ _) ?_ ?_ ?_
    · exact within.backend
    · simp
    · apply Streamless.within
      exact (streamless_phaseChange relay .response).append (by simp [Streamless, Action.streams])
  | reconnects ec pooled bodiless =>
    refine within.extend rfl (List.append_assoc _ _ _) ?_ ?_ ?_
    · simp
    · simp [Op.streams]
    · intro action actionMem
      rcases List.mem_append.mp actionMem with closes | connects
      · exact (streamless_closeActions relay).within action closes
      · simp_all [Action.streams]
  | writeFails retryAllowed ec final => exact within.closed.writeError _ _
  | exchanged keepAlive ec continues =>
    apply continues.within
    refine within.extend (List.append_nil _).symm rfl ?_ ?_ ?_
    · simp
    · simp
    · exact within_finishActions within keepAlive
  | rejected ec continues => exact continues.within within
  | bridges next stream fromPool isBackend opens =>
    refine within.extend rfl (List.append_assoc _ _ _) ?_ ?_ ?_
    · exact within.backend
    · simpa [Op.streams, Peer.streams] using within.backend stream isBackend
    · apply Streamless.within
      exact (streamless_phaseChange relay .bridge).append (by simp [Streamless, Action.streams])
  | bridgesNothing next fromPool gone opens =>
    refine within.extend (List.append_nil _).symm (List.append_assoc _ _ _) ?_ ?_ ?_
    · exact within.backend
    · simp
    · apply Streamless.within
      exact (streamless_phaseChange relay .bridge).append (by simp [Streamless, Action.streams])
  | bridgeFails next ec opens => exact within.teardown

theorem Within.served (within : relay.Within reach) (parsed : ParsedRequest)
    (idleTimer : IdleTimer) : (relay.served parsed idleTimer).Within reach := by
  refine within.extend (List.append_nil _).symm (List.append_assoc _ _ _) within.backend
    (by simp) ?_
  apply Streamless.within
  exact (streamless_phaseChange relay .forward).append (by simp [Streamless, Action.streams])

theorem Within.answered (within : relay.Within reach) (stream : TransportStream)
    (parsed : ParsedResponse) (idleTimer : IdleTimer) :
    (relay.answered stream parsed idleTimer).Within reach := by
  refine within.extend (List.append_nil _).symm rfl within.backend (by simp) ?_
  simp [Action.streams]

theorem Advances.streams {dest : Peer} {codec : Codec} {body : MessageBody}
    {bodyStep : BodySource × BodyStep}
    (advances : Advances op completion dest codec body next bodyStep) :
    op.streams = dest.streams ++ body.peer.streams := by
  cases advances <;> simp [Op.streams]

theorem Ends.streams {dest : Peer} {codec : Codec} {shown : List Action}
    (ends : Ends op completion dest codec next ec shown) : dest.streams ⊆ op.streams := by
  cases ends with
  | headFails | headIsAll | pieceFails => exact List.subset_append_left _ _
  | bodyFails advances fails =>
    rw [advances.streams]
    exact List.subset_append_left _ _
  | bodyEnds advances exhausted =>
    rw [advances.streams]
    exact List.subset_append_left _ _

theorem Ends.streamless {dest : Peer} {codec : Codec} {shown : List Action}
    (ends : Ends op completion dest codec next ec shown) : Streamless shown := by
  cases ends <;> simp [Streamless, Action.streams]

theorem streams_of_responseProgress {progress : H1Codec.Progress ParsedResponse}
    (responding : responseProgress stream op completion = some progress) :
    op.streams = [stream] := by
  rcases op_of_responseProgress responding with ⟨buf, rfl⟩ | rfl
  · rfl
  · rfl

/-- A request on a stream that the relay may use. -/
theorem requestActions_within (brought : reach stream) (head : HttpRequestHead) (codec : Codec)
    (bytes : Bytes) (headers : HeaderList) :
    ∀ action ∈ [.requestTo stream head, headAction (.backend stream) codec bytes headers],
      ∀ stream ∈ action.streams, reach stream := by
  intro action actionMem
  rcases List.mem_cons.mp actionMem with rfl | writes
  · simpa [Action.streams] using brought
  · exact (streamless_headAction _ _ _ _).within action writes

/-- The callback of an operation reaches what the operation and the relay do. -/
theorem Handled.within (handled : relay.Handled op completion after) (within : relay.Within reach)
    (fromOp : ∀ stream ∈ op.streams, reach stream)
    (fetched : ∀ stream ∈ completion.streams, reach stream) : after.Within reach := by
  cases handled with
  | requestMore progress =>
    refine within.extend rfl rfl within.backend ?_ ?_
    · simp [Op.streams, Peer.streams]
    · simp [Action.streams]
  | requestFails ec progress => exact within.teardown
  | @requestForwarded _ _ parsed progress idleTimer _ _ connects =>
    have served := within.served parsed idleTimer
    refine served.extend rfl rfl served.backend ?_ ?_
    · simp [Op.streams]
    · simp [Action.streams]
  | requestRejected progress idleTimer rejects => exact (within.served _ idleTimer).writeError _ _
  | connectFails target next ec message => exact within.writeError _ _
  | requestSent target head body stream endpoint fromPool idleTimer =>
    have brought : reach stream := fetched stream (by simp [Completion.streams])
    refine within.extend rfl rfl ?_ ?_ ?_
    · rintro stream' ⟨⟩
      exact brought
    · cases body <;> simp [Op.streams, Peer.streams, brought]
    · exact requestActions_within brought _ _ _ _
  | tunnelAccepted target stream endpoint fromPool =>
    have brought : reach stream := fetched stream (by simp [Completion.streams])
    apply Within.writeResponse
    · refine ⟨?_, within.pending, within.out⟩
      rintro stream' ⟨⟩
      exact brought
    · simp
  | requestResent target stream endpoint fromPool head kept =>
    have brought : reach stream := fetched stream (by simp [Completion.streams])
    refine within.extend rfl rfl ?_ ?_ ?_
    · rintro stream' ⟨⟩
      exact brought
    · cases relay.pendingBody <;> simp [Op.streams, Peer.streams, brought]
    · exact requestActions_within brought _ _ _ _
  | bodyAsks advances asks =>
    rw [advances.streams] at fromOp
    refine within.extend rfl rfl within.backend ?_ ?_
    · simpa [Op.streams] using fromOp
    · simp [Action.streams]
  | pieceSent advances delivers nonempty =>
    rw [advances.streams] at fromOp
    refine within.extend rfl rfl within.backend ?_ ?_
    · simpa [Op.streams] using fromOp
    · simp [Action.streams]
  | finishes ends =>
    refine within.extend rfl (List.append_assoc _ _ _) within.backend ?_ ?_
    · intro op' opMem stream streamMem
      rw [List.mem_singleton] at opMem
      subst opMem
      exact fromOp stream (ends.streams streamMem)
    · exact (ends.streamless.append (by simp [Streamless, Action.streams])).within
  | messageEnds ends resumes =>
    apply resumes.within
    refine within.extend (List.append_nil _).symm (List.append_assoc _ _ _) within.backend
      (by simp) ?_
    exact (ends.streamless.append (by simp [Streamless, Action.streams])).within
  | finished dest next ec resumes =>
    apply resumes.within
    refine within.extend (List.append_nil _).symm rfl within.backend (by simp) ?_
    simp [Action.streams]
  | responseMore progress =>
    rw [streams_of_responseProgress progress] at fromOp
    refine within.extend rfl rfl within.backend ?_ ?_
    · simpa [Op.streams, Peer.streams] using fromOp
    · simp [Action.streams]
  | responseFails ec progress => exact within.closed.writeError _ _
  | upgradeAnswered progress idleTimer upgrades =>
    exact (within.answered _ _ idleTimer).writeResponse _ _ _ nofun
  | responseAnswered progress idleTimer plain =>
    rw [streams_of_responseProgress progress] at fromOp
    apply (within.answered _ _ idleTimer).writeResponse
    unfold clientBody
    split
    · simp
    · intro part partMem
      rw [peer_of_mem_map part partMem]
      exact fromOp
  | drainReads data examined idleTimer running =>
    refine within.extend rfl rfl within.backend ?_ ?_
    · simp [Op.streams]
    · simp [Action.streams]
  | drainEnds completion => exact within.teardown

theorem streams_of_reads {peer : Peer} {capacity : ℕ} (reads : op.reads = some (peer, capacity)) :
    peer.streams ⊆ op.streams := by
  cases op <;> simp only [Op.reads, reduceCtorEq, Option.some.injEq, Prod.mk.injEq] at reads <;>
    rcases reads with ⟨rfl, -⟩ <;> simp [Op.streams, Peer.streams]

theorem arrivals_within (fromOp : ∀ stream ∈ op.streams, reach stream) (completion : Completion) :
    ∀ action ∈ arrivals op completion, ∀ stream ∈ action.streams, reach stream := by
  unfold arrivals
  split
  · split
    · rename_i reads
      simp only [List.mem_singleton, forall_eq, Action.streams]
      exact fun stream streamMem => fromOp stream (streams_of_reads reads streamMem)
    · simp
  · simp

/-- A step reaches no other streams than the relay did and the one that it is handed. -/
theorem Outcome.within {input : Input} (outcome : relay.Outcome input after) :
    after.Within fun stream => relay.Reaches stream ∨ stream ∈ input.streams := by
  have backend : ∀ stream, relay.backend = some stream →
      relay.Reaches stream ∨ stream ∈ input.streams :=
    fun stream isBackend => .inl (.inl isBackend)
  have pending : ∀ op ∈ relay.pending, ∀ stream ∈ op.streams,
      relay.Reaches stream ∨ stream ∈ input.streams :=
    fun op opMem stream streamMem => .inl (.inr ⟨op, opMem, streamMem⟩)
  cases outcome with
  | @exchange op completion _ waits awaits fits handled =>
    have fromOp := pending op (by simp [waits])
    apply handled.within
    · exact ⟨backend, by simp, arrivals_within fromOp completion⟩
    · exact fromOp
    · exact fun stream streamMem => .inr streamMem
  | @tunnel op left completion src dst stream _ bridging holds directions carries outstanding fits
      carried =>
      have fromOp := pending op outstanding
      have start : Within (fun stream => relay.Reaches stream ∨ stream ∈ completion.streams)
          { relay with pending := [left], out := arrivals op completion } := by
        refine ⟨backend, ?_, arrivals_within fromOp completion⟩
        intro op' opMem stream' streamMem
        rw [List.mem_singleton] at opMem
        subst opMem
        -- The two directions of a bridge use the same stream.
        apply fromOp
        rcases directions with ⟨rfl, rfl, rfl | rfl⟩ | ⟨rfl, rfl, rfl | rfl⟩ <;>
          rcases carries with rfl | rfl <;> simpa [Op.streams, Peer.streams] using streamMem
      have goesOn : ∀ op' : Op, op'.Carries src dst → ∀ stream ∈ op'.streams,
          relay.Reaches stream ∨ stream ∈ completion.streams := by
        intro op' carries' stream' streamMem
        apply fromOp
        rcases carries with rfl | rfl <;> rcases carries' with rfl | rfl <;> exact streamMem
      cases carried with
      | forwards data examined nonempty idleTimer running =>
        refine start.extend rfl rfl start.backend ?_ (by simp [Action.streams])
        simpa using goesOn _ (.inr rfl)
      | reads idleTimer running =>
        refine start.extend rfl rfl start.backend ?_ (by simp [Action.streams])
        simpa using goesOn _ (.inl rfl)
      | ends => exact start.teardown
  | ignored done carries outstanding fits =>
    exact ⟨backend, by simp, arrivals_within (pending _ outstanding) _⟩
  | expired kick armed => exact ⟨backend, pending, by simp⟩
  | timedOut kick expired queued =>
    apply Within.teardown
    exact ⟨backend, pending, by simp [Action.streams]⟩
  | shutsDown running waiting => exact ⟨backend, pending, by simp [Action.streams]⟩
  | drains running busy => exact ⟨backend, pending, by simp⟩
  | alreadyClosed done => exact ⟨backend, pending, by simp⟩

end Within

/-! ## Calls of the pool -/

/-- A call of the pool. -/
def Action.isCall : Action → Bool
  | .connect _ | .release _ _ => true
  | _ => false

/-- What a relay has asked of the pool. -/
def calls (actions : List Action) : List Action :=
  actions.filter Action.isCall

/-- What a step of a relay that holds this stream asks of the pool. -/
inductive Deals (held : Option TransportStream) (after : RelaySession) : Prop where
  | nothing (quiet : calls after.out = [])
  | connects (target : ConnectTarget) (asks : calls after.out = [.connect target])
  | releases (endpoint : BackendEndpoint) (stream : TransportStream) (before later : List Action)
      (isHeld : held = some stream)
      (asks : after.out = before ++ .release endpoint stream :: later) (quiet : calls before = [])
      (streamless : Streamless later) (gone : ¬after.Reaches stream)

/-- The same, with the endpoint that the relay knows for its stream. -/
inductive Asks (held : Option TransportStream) (endpoint : BackendEndpoint)
    (after : RelaySession) : Prop where
  | nothing (quiet : calls after.out = [])
  | connects (target : ConnectTarget) (asks : calls after.out = [.connect target])
  | releases (stream : TransportStream) (before later : List Action)
      (isHeld : held = some stream)
      (asks : after.out = before ++ .release endpoint stream :: later) (quiet : calls before = [])
      (streamless : Streamless later) (gone : ¬after.Reaches stream)

variable {endpoint : BackendEndpoint}

section Deals

variable {relay after : RelaySession}

theorem Asks.deals {held : Option TransportStream} (asks : Asks held endpoint after) :
    Deals held after := by
  cases asks with
  | nothing quiet => exact .nothing quiet
  | connects target asks => exact .connects target asks
  | releases stream before later isHeld asks quiet streamless gone =>
    exact .releases endpoint stream before later isHeld asks quiet streamless gone

theorem calls_append (first second : List Action) :
    calls (first ++ second) = calls first ++ calls second :=
  List.filter_append first second

theorem Streamless.calls_eq {actions : List Action} (streamless : Streamless actions) :
    calls actions = [] := by
  rw [calls, List.filter_eq_nil_iff]
  intro action actionMem
  rcases streamless action actionMem with ⟨unused, notConnect⟩
  cases action <;> simp_all [Action.streams, Action.isCall]

theorem calls_quiet {before later : List Action} (quiet : calls before = [])
    (none : calls later = []) : calls (before ++ later) = [] := by
  rw [calls_append, quiet, none]
  rfl

theorem calls_of_release {actions before later : List Action}
    (asks : actions = before ++ .release endpoint stream :: later) (quiet : calls before = [])
    (streamless : Streamless later) : calls actions = [.release endpoint stream] := by
  rw [asks, List.append_cons, calls_append, calls_append, quiet, streamless.calls_eq]
  rfl

theorem calls_arrivals (op : Op) (completion : Completion) : calls (arrivals op completion) = [] := by
  unfold arrivals
  split
  · split <;> rfl
  · rfl

theorem calls_teardown (quiet : calls relay.out = []) : calls relay.teardown.out = [] := by
  refine teardown_cases relay (fun _ => ?_) fun _ => ?_
  · exact quiet
  · simp [calls_append, quiet, (streamless_teardownActions relay).calls_eq]

theorem calls_writeResponse (quiet : calls relay.out = []) (head : HttpResponseHead)
    (body : Option MessageBody) (next : WriteThen) :
    calls (relay.writeResponse head body next).out = [] := by
  rw [writeResponse, writeMessage_eq]
  simp [calls_append, quiet, (streamless_headAction _ _ _ _).calls_eq]

theorem calls_writeError (quiet : calls relay.out = []) (status : HttpStatus) (message : Bytes) :
    calls (relay.writeError status message).out = [] := by
  apply calls_writeResponse
  exact quiet

theorem AfterResponse.streamless (continues : relay.AfterResponse after) :
    ∃ later, after.out = relay.out ++ later ∧ Streamless later := by
  cases continues with
  | nextRequest idleTimer running keepAlive overTcp serving =>
    refine ⟨_, List.append_assoc _ _ _, ?_⟩
    exact (streamless_phaseChange relay .request).append (streamless_parseAction .client .h1)
  | shutDown running last => exact ⟨_, rfl, by simp [Streamless, Action.streams]⟩
  | drain running overQuic serving => exact ⟨_, rfl, by simp [Streamless, Action.streams]⟩
  | finished done => exact ⟨[], (List.append_nil _).symm, by simp [Streamless]⟩

theorem AfterResponse.not_reaches (continues : relay.AfterResponse after)
    (idle : relay.pending = []) (gone : relay.backend = none) (stream : TransportStream) :
    ¬after.Reaches stream := by
  cases continues <;> simp [Reaches, Op.streams, Peer.streams, idle, gone]

theorem Resumes.asks (resumes : relay.Resumes next ec after) (quiet : calls relay.out = [])
    (idle : relay.pending = []) : Asks relay.backend relay.backendEndpoint after := by
  cases resumes with
  | awaitsResponse retryAllowed idleTimer stream isBackend =>
    apply Asks.nothing
    simp [calls_append, quiet, (streamless_phaseChange relay .response).calls_eq,
      (streamless_parseAction _ _).calls_eq]
  | losesBackend retryAllowed idleTimer gone =>
    apply Asks.nothing
    exact calls_quiet (calls_quiet quiet (streamless_phaseChange relay .response).calls_eq) rfl
  | reconnects ec pooled bodiless =>
    apply Asks.connects (.fresh relay.backendEndpoint)
    rw [calls_append, calls_quiet quiet (streamless_closeActions relay).calls_eq]
    rfl
  | writeFails retryAllowed ec final =>
    apply Asks.nothing
    apply calls_writeError
    exact calls_quiet quiet (streamless_closeActions relay).calls_eq
  | exchanged keepAlive ec continues =>
    rcases continues.streamless with ⟨later, isOut, streamless⟩
    cases connected : relay.backend with
    | none =>
      simp only [finishActions, connected] at isOut
      apply Asks.nothing
      rw [isOut]
      exact calls_quiet (calls_quiet quiet rfl) streamless.calls_eq
    | some stream =>
      simp only [finishActions, connected] at isOut
      cases keepAlive with
      | false =>
        apply Asks.nothing
        rw [isOut]
        exact calls_quiet (calls_quiet quiet rfl) streamless.calls_eq
      | true =>
        refine .releases stream relay.out later rfl ?_ quiet streamless ?_
        · simpa using isOut
        · exact continues.not_reaches idle rfl stream
  | rejected ec continues =>
    rcases continues.streamless with ⟨later, isOut, streamless⟩
    apply Asks.nothing
    rw [isOut]
    exact calls_quiet quiet streamless.calls_eq
  | bridges next stream fromPool isBackend opens =>
    apply Asks.nothing
    exact calls_quiet (calls_quiet quiet (streamless_phaseChange relay .bridge).calls_eq) rfl
  | bridgesNothing next fromPool gone opens =>
    apply Asks.nothing
    exact calls_quiet (calls_quiet quiet (streamless_phaseChange relay .bridge).calls_eq) rfl
  | bridgeFails next ec opens => exact .nothing (calls_teardown quiet)

theorem calls_served (quiet : calls relay.out = []) (parsed : ParsedRequest)
    (idleTimer : IdleTimer) : calls (relay.served parsed idleTimer).out = [] := by
  simp only [served, calls_append, quiet, (streamless_phaseChange relay .forward).calls_eq]
  rfl

theorem Handled.asks (handled : relay.Handled op completion after) (quiet : calls relay.out = [])
    (idle : relay.pending = []) : Asks relay.backend relay.backendEndpoint after := by
  cases handled with
  | requestMore progress => exact .nothing (calls_quiet quiet rfl)
  | requestFails ec progress => exact .nothing (calls_teardown quiet)
  | @requestForwarded _ _ parsed progress idleTimer target next connects =>
    apply Asks.connects target
    have served := calls_served quiet parsed idleTimer
    simp only [connect, emit, await, calls_append, served]
    rfl
  | requestRejected progress idleTimer rejects =>
    exact .nothing (calls_writeError (calls_served quiet _ _) _ _)
  | connectFails target next ec message => exact .nothing (calls_writeError quiet _ _)
  | requestSent target head body stream endpoint fromPool idleTimer =>
    apply Asks.nothing
    have writes := (streamless_headAction (.backend stream) (codecFor endpoint)
      (H1Codec.requestBytes head) (H3Codec.requestHeaderList head)).calls_eq
    exact calls_quiet quiet writes
  | tunnelAccepted target stream endpoint fromPool =>
    apply Asks.nothing
    apply calls_writeResponse
    exact quiet
  | requestResent target stream endpoint fromPool head kept =>
    apply Asks.nothing
    have writes := (streamless_headAction (.backend stream) relay.backendCodec
      (H1Codec.requestBytes head) (H3Codec.requestHeaderList head)).calls_eq
    exact calls_quiet quiet writes
  | bodyAsks advances asks => exact .nothing (calls_quiet quiet rfl)
  | pieceSent advances delivers nonempty => exact .nothing (calls_quiet quiet rfl)
  | finishes ends =>
    apply Asks.nothing
    exact calls_quiet (calls_quiet quiet ends.streamless.calls_eq) rfl
  | messageEnds ends resumes =>
    apply resumes.asks
    · exact calls_quiet (calls_quiet quiet ends.streamless.calls_eq) rfl
    · exact idle
  | finished dest next ec resumes =>
    apply resumes.asks
    · exact calls_quiet quiet rfl
    · exact idle
  | responseMore progress => exact .nothing (calls_quiet quiet rfl)
  | responseFails ec progress =>
    apply Asks.nothing
    apply calls_writeError
    exact calls_quiet quiet (streamless_closeActions relay).calls_eq
  | upgradeAnswered progress idleTimer upgrades =>
    apply Asks.nothing
    apply calls_writeResponse
    exact calls_quiet quiet rfl
  | responseAnswered progress idleTimer plain =>
    apply Asks.nothing
    apply calls_writeResponse
    exact calls_quiet quiet rfl
  | drainReads data examined idleTimer running => exact .nothing (calls_quiet quiet rfl)
  | drainEnds completion => exact .nothing (calls_teardown quiet)

/-- What is released is out of reach. -/
theorem Deals.not_reaches {held : Option TransportStream} (deals : Deals held after)
    (released : .release endpoint stream ∈ after.out) : ¬after.Reaches stream := by
  have called : .release endpoint stream ∈ calls after.out :=
    List.mem_filter.mpr ⟨released, rfl⟩
  cases deals with
  | nothing quiet => simp [quiet] at called
  | connects target asks => simp [asks] at called
  | releases endpoint' stream' before later isHeld asks quiet streamless gone =>
    have only := calls_of_release asks quiet streamless
    have same : stream = stream' := by
      simp only [only, List.mem_singleton, Action.release.injEq] at called
      exact called.2
    rw [same]
    exact gone

/-- A step asks the pool for at most one thing, and loses what it releases. -/
theorem Outcome.asks {input : Input} (outcome : relay.Outcome input after) :
    Asks relay.backend relay.backendEndpoint after := by
  cases outcome with
  | exchange waits awaits fits handled => exact handled.asks (calls_arrivals _ _) rfl
  | tunnel bridging holds directions carries outstanding fits carried =>
    apply Asks.nothing
    cases carried with
    | forwards data examined nonempty idleTimer running =>
      rw [calls_append, calls_arrivals]
      rfl
    | reads idleTimer running =>
      rw [calls_append, calls_arrivals]
      rfl
    | ends => exact calls_teardown (calls_arrivals _ _)
  | ignored done carries outstanding fits => exact .nothing (calls_arrivals _ _)
  | expired kick armed => exact .nothing rfl
  | timedOut kick expired queued => exact .nothing (calls_teardown rfl)
  | shutsDown running waiting => exact .nothing rfl
  | drains running busy => exact .nothing rfl
  | alreadyClosed done => exact .nothing rfl

theorem Outcome.deals {input : Input} (outcome : relay.Outcome input after) :
    Deals relay.backend after :=
  outcome.asks.deals

end Deals

/-! ## The endpoint of the backend stream -/

section Endpoint

variable {relay after : RelaySession} {stream : TransportStream}

/-- The relay has the stream and knows the endpoint for it. -/
def Keeps (relay : RelaySession) (stream : TransportStream) (endpoint : BackendEndpoint) : Prop :=
  relay.backend = some stream ∧ relay.backendEndpoint = endpoint

theorem keeps_of_teardown (keeps : relay.teardown.Keeps stream endpoint) :
    relay.Keeps stream endpoint := by
  cases running : relay.done with
  | true =>
    rw [teardown_of_done _ running] at keeps
    exact keeps
  | false =>
    rw [teardown_eq _ running] at keeps
    cases keeps.1

theorem keeps_of_writeResponse {head : HttpResponseHead} {body : Option MessageBody}
    (keeps : (relay.writeResponse head body next).Keeps stream endpoint) :
    relay.Keeps stream endpoint := by
  rw [RelaySession.writeResponse, writeMessage_eq] at keeps
  exact keeps

theorem keeps_of_writeError {status : HttpStatus} {message : Bytes}
    (keeps : (relay.writeError status message).Keeps stream endpoint) :
    relay.Keeps stream endpoint := by
  have kept := keeps_of_writeResponse keeps
  exact kept

theorem AfterResponse.keeps (continues : relay.AfterResponse after)
    (keeps : after.Keeps stream endpoint) : relay.Keeps stream endpoint := by
  cases continues <;> exact keeps

theorem Resumes.keeps (resumes : relay.Resumes next ec after)
    (keeps : after.Keeps stream endpoint) : relay.Keeps stream endpoint := by
  cases resumes with
  | awaitsResponse | losesBackend | bridges | bridgesNothing => exact keeps
  | reconnects => cases keeps.1
  | writeFails => cases (keeps_of_writeError keeps).1
  | exchanged keepAlive ec continues => cases (continues.keeps keeps).1
  | rejected ec continues => exact continues.keeps keeps
  | bridgeFails => exact keeps_of_teardown keeps

/-- A callback changes the stream and its endpoint together, to those of a connection. -/
theorem Handled.keeps (handled : relay.Handled op completion after)
    (keeps : after.Keeps stream endpoint) :
    relay.Keeps stream endpoint ∨
      ∃ fromPool, completion = .connected (.ok (stream, endpoint, fromPool)) := by
  cases handled with
  | requestSent | requestResent =>
    rcases keeps with ⟨⟨⟩, ⟨⟩⟩
    exact .inr ⟨_, rfl⟩
  | tunnelAccepted =>
    rcases keeps_of_writeResponse keeps with ⟨⟨⟩, ⟨⟩⟩
    exact .inr ⟨_, rfl⟩
  | requestMore | requestForwarded | bodyAsks | pieceSent | finishes | responseMore | drainReads =>
    exact .inl keeps
  | requestRejected | connectFails =>
    have kept := keeps_of_writeError keeps
    exact .inl kept
  | upgradeAnswered | responseAnswered =>
    have kept := keeps_of_writeResponse keeps
    exact .inl kept
  | requestFails | drainEnds => exact .inl (keeps_of_teardown keeps)
  | messageEnds ends resumes => exact .inl (resumes.keeps keeps)
  | finished dest next ec resumes => exact .inl (resumes.keeps keeps)
  | responseFails => cases (keeps_of_writeError keeps).1

theorem Outcome.keeps {input : Input} (outcome : relay.Outcome input after)
    (keeps : after.Keeps stream endpoint) :
    relay.Keeps stream endpoint ∨ ∃ op fromPool,
      input = .complete op (.connected (.ok (stream, endpoint, fromPool))) := by
  cases outcome with
  | exchange waits awaits fits handled =>
    rcases handled.keeps keeps with kept | ⟨fromPool, rfl⟩
    · exact .inl kept
    · exact .inr ⟨_, fromPool, rfl⟩
  | tunnel bridging holds directions carries outstanding fits carried =>
    cases carried with
    | forwards | reads => exact .inl keeps
    | ends =>
      have kept := keeps_of_teardown keeps
      exact .inl kept
  | ignored | expired | shutsDown | drains | alreadyClosed => exact .inl keeps
  | timedOut =>
    have kept := keeps_of_teardown keeps
    exact .inl kept

end Endpoint

end RelaySession

end ReverseProxy
