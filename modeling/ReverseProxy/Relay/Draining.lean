import ReverseProxy.Relay.Exchanges
import ReverseProxy.Relay.Outstanding

/-!
# Draining

`graceful_close` sets `draining_`, which nothing resets.  A draining relay does not go back
to `request_phase`, since the only way there leads through `after_client_response`; and once
its response is written it only shuts the client's stream down and reads it to its end.
-/

namespace ReverseProxy

open Machine Text

namespace RelaySession

/-! ## Requests after the call -/

/-- The operation with which `request_phase` starts to parse. -/
def Op.startsRequest : Op → Bool
  | .readHead .client [] | .takeHeaders .client => true
  | _ => false

/-- The operation is part of the parse of a request. -/
def Op.parsesRequest : Op → Bool
  | .readHead .client _ | .takeHeaders .client => true
  | _ => false

/-- A step enters `request_phase`: it changes to that phase or starts to parse a request. -/
def entersRequestPhase (transition : Transition) : Prop :=
  .phase .request ∈ transition.actions ∨
    ∃ op ∈ transition.source.started transition.input transition.target, op.startsRequest = true

/-- A draining relay in the middle of a callback that has not parsed a request. -/
structure Winding (relay : RelaySession) : Prop where
  idle : relay.pending = []
  draining : relay.draining = true
  phase : .phase .request ∉ relay.out
  requests : requestsIn relay.out = 0

/-- What a callback of a draining relay does about requests, if so many parses were under way. -/
structure Stops (parses : ℕ) (after : RelaySession) : Prop where
  draining : after.draining = true
  phase : .phase .request ∉ after.out
  fresh : ∀ op ∈ after.pending, op.startsRequest = false
  requests : requestsIn after.out + after.pending.countP Op.parsesRequest ≤ parses

variable {completion : Completion} {op : Op} {ec : Option ErrorCode}

section Requests

variable {relay after : RelaySession} {parses : ℕ}

/-- A callback that parses nothing and starts at most operations of another kind. -/
theorem Winding.stops (winding : relay.Winding) {ops : List Op} {actions : List Action}
    (draining : after.draining = true) (isPending : after.pending = relay.pending ++ ops)
    (isOut : after.out = relay.out ++ actions) (others : ∀ op ∈ ops, op.parsesRequest = false)
    (unentered : .phase .request ∉ actions) (unparsed : requestsIn actions = 0) :
    Stops parses after := by
  rw [winding.idle, List.nil_append] at isPending
  refine ⟨draining, ?_, ?_, ?_⟩
  · simp [isOut, winding.phase, unentered]
  · intro op opMem
    have other := others op (isPending ▸ opMem)
    cases op with
    | readHead peer buf => cases peer <;> simp_all [Op.startsRequest, Op.parsesRequest]
    | takeHeaders peer => cases peer <;> simp_all [Op.startsRequest, Op.parsesRequest]
    | _ => rfl
  · have none : after.pending.countP Op.parsesRequest = 0 := by
      rw [isPending, List.countP_eq_zero]
      intro op opMem isParse
      simp [others op opMem] at isParse
    simp [none, isOut, winding.requests, unparsed]

theorem phase_notMem_closeActions (phase : Phase) : .phase phase ∉ relay.closeActions := by
  unfold closeActions
  cases relay.backend <;> simp

theorem phase_notMem_finishActions (phase : Phase) (keepAlive : Bool) :
    .phase phase ∉ relay.finishActions keepAlive := by
  unfold finishActions
  cases relay.backend <;> cases keepAlive <;> simp

theorem phase_notMem_phaseChange {phase other : Phase} (different : phase ≠ other) :
    .phase phase ∉ relay.phaseChange other := by
  unfold phaseChange
  split <;> simp [different]

theorem phase_notMem_teardownActions {phase : Phase} (different : phase ≠ .closed) :
    .phase phase ∉ relay.teardownActions := by
  unfold teardownActions
  split <;> simp [different, phase_notMem_closeActions]

theorem phase_ne_parseAction (phase : Phase) (peer : Peer) (codec : Codec) :
    .phase phase ≠ parseAction peer codec := by
  cases codec <;> simp [parseAction]

theorem phase_ne_headAction (phase : Phase) (dest : Peer) (codec : Codec) (bytes : Bytes)
    (headers : HeaderList) : .phase phase ≠ headAction dest codec bytes headers := by
  cases codec <;> simp [headAction]

theorem Winding.stops_same (winding : relay.Winding) : Stops parses relay :=
  winding.stops winding.draining (List.append_nil _).symm (List.append_nil _).symm (by simp)
    (by simp) rfl

theorem Winding.stops_teardown (winding : relay.Winding) : Stops parses relay.teardown := by
  refine teardown_cases relay (fun _ => ?_) fun _ => ?_
  · exact winding.stops_same
  · exact winding.stops winding.draining (List.append_nil _).symm rfl (by simp)
      (phase_notMem_teardownActions (by simp)) requestsIn_teardownActions

theorem Winding.stops_writeResponse (winding : relay.Winding) (head : HttpResponseHead)
    (body : Option MessageBody) (next : WriteThen) :
    Stops parses (relay.writeResponse head body next) := by
  rw [writeResponse, writeMessage_eq]
  refine winding.stops winding.draining rfl rfl ?_ ?_ ?_
  · simp [Op.parsesRequest]
  · simp [phase_ne_headAction]
  · simp

theorem Winding.answered (winding : relay.Winding) (stream : TransportStream)
    (parsed : ParsedResponse) (idleTimer : IdleTimer) :
    (relay.answered stream parsed idleTimer).Winding := by
  refine ⟨winding.idle, winding.draining, ?_, ?_⟩
  · simp [RelaySession.answered, winding.phase]
  · simp [RelaySession.answered, winding.requests, Action.isRequest]

theorem Winding.stops_writeError (winding : relay.Winding) (status : HttpStatus)
    (message : Bytes) : Stops parses (relay.writeError status message) := by
  apply Winding.stops_writeResponse
  exact ⟨winding.idle, winding.draining, winding.phase, winding.requests⟩

/-- `close_backend`. -/
theorem Winding.closed (winding : relay.Winding) :
    Winding { relay with backend := none, out := relay.out ++ relay.closeActions } := by
  refine ⟨winding.idle, winding.draining, ?_, ?_⟩
  · simp [winding.phase, phase_notMem_closeActions]
  · simp [winding.requests]

theorem AfterResponse.stops (continues : relay.AfterResponse after) (winding : relay.Winding) :
    Stops parses after := by
  cases continues with
  | nextRequest idleTimer running keepAlive overTcp serving => simp [winding.draining] at serving
  | shutDown running last =>
    exact winding.stops rfl rfl rfl (by simp [Op.parsesRequest]) (by simp) rfl
  | drain running overQuic serving => simp [winding.draining] at serving
  | finished done => exact winding.stops_same

theorem Resumes.stops {next : WriteThen} (resumes : relay.Resumes next ec after)
    (winding : relay.Winding) : Stops parses after := by
  cases resumes with
  | awaitsResponse retryAllowed idleTimer stream isBackend =>
    refine winding.stops winding.draining rfl (List.append_assoc _ _ _) ?_ ?_ ?_
    · cases relay.backendCodec <;> simp [parseOp, Op.parsesRequest]
    · simp [phase_notMem_phaseChange, phase_ne_parseAction]
    · simp
  | losesBackend retryAllowed idleTimer gone =>
    refine winding.stops winding.draining (List.append_nil _).symm (List.append_assoc _ _ _)
      ?_ ?_ ?_
    · simp
    · simp [phase_notMem_phaseChange]
    · simp [Action.isRequest]
  | reconnects ec pooled bodiless =>
    refine winding.stops winding.draining rfl (List.append_assoc _ _ _) ?_ ?_ ?_
    · simp [Op.parsesRequest]
    · simp [phase_notMem_closeActions]
    · simp [Action.isRequest]
  | writeFails retryAllowed ec final => exact winding.closed.stops_writeError _ _
  | exchanged keepAlive ec continues =>
    apply continues.stops
    refine ⟨winding.idle, winding.draining, ?_, ?_⟩
    · simp [winding.phase, phase_notMem_finishActions]
    · simp [winding.requests]
  | rejected ec continues => exact continues.stops winding
  | bridges next stream fromPool isBackend opens =>
    refine winding.stops winding.draining rfl (List.append_assoc _ _ _) ?_ ?_ ?_
    · simp [Op.parsesRequest]
    · simp [phase_notMem_phaseChange]
    · simp [Action.isRequest]
  | bridgesNothing next fromPool gone opens =>
    refine winding.stops winding.draining (List.append_nil _).symm (List.append_assoc _ _ _)
      ?_ ?_ ?_
    · simp
    · simp [phase_notMem_phaseChange]
    · simp [Action.isRequest]
  | bridgeFails next ec opens => exact winding.stops_teardown

theorem onBlockRead_more_ne_nil {α : Type} {finish : Bytes → Bytes → Except ErrorCode α}
    {buf buf' : Bytes} {result : ReadResult}
    (continues : H1Codec.onBlockRead finish buf result = .more buf') : buf' ≠ [] := by
  rcases H1Codec.onBlockRead_eq_more continues with ⟨data, rfl, rfl⟩
  intro nothing
  rcases List.append_eq_nil_iff.mp nothing with ⟨-, rfl⟩
  simp [H1Codec.onBlockRead] at continues

/-- A parse that goes on has read something. -/
theorem more_ne_nil {buf : Bytes} (progress : requestProgress op completion = some (.more buf)) :
    buf ≠ [] := by
  unfold requestProgress at progress
  split at progress
  · exact onBlockRead_more_ne_nil (Option.some.inj progress)
  · simp at progress
  · simp at progress
  · simp at progress

theorem parses_of_requestProgress {progress : H1Codec.Progress ParsedRequest}
    (requesting : requestProgress op completion = some progress) : op.parsesRequest = true := by
  unfold requestProgress at requesting
  split at requesting
  · rfl
  · rfl
  · rfl
  · simp at requesting

theorem Ends.phase_notMem {dest : Peer} {codec : Codec} {next : WriteThen} {shown : List Action}
    (phase : Phase) (ends : Ends op completion dest codec next ec shown) :
    .phase phase ∉ shown := by
  cases ends <;> simp

theorem countP_of_requestProgress {progress : H1Codec.Progress ParsedRequest}
    (requesting : requestProgress op completion = some progress) :
    [op].countP Op.parsesRequest = 1 := by
  rw [List.countP_singleton, parses_of_requestProgress requesting]
  rfl

theorem Handled.stops (handled : relay.Handled op completion after) (winding : relay.Winding) :
    Stops ([op].countP Op.parsesRequest) after := by
  cases handled with
  | @requestMore _ _ buf progress =>
    rw [countP_of_requestProgress progress]
    have goesOn : Op.startsRequest (.readHead .client buf) = false := by
      cases buf with
      | nil => exact absurd rfl (more_ne_nil progress)
      | cons => rfl
    refine ⟨winding.draining, ?_, ?_, ?_⟩
    · simp [winding.phase]
    · simpa [winding.idle] using goesOn
    · simp [winding.idle, winding.requests, Action.isRequest, Op.parsesRequest]
  | requestFails ec progress => exact winding.stops_teardown
  | requestForwarded progress idleTimer connects =>
    rw [countP_of_requestProgress progress]
    refine ⟨winding.draining, ?_, ?_, ?_⟩
    · simp [connect, await, emit, served, winding.phase, phase_notMem_phaseChange]
    · simp [connect, await, emit, served, winding.idle, Op.startsRequest]
    · simp [connect, await, emit, served, winding.idle, winding.requests, Action.isRequest,
        Op.parsesRequest]
  | requestRejected progress idleTimer rejects =>
    rw [countP_of_requestProgress progress, writeError, writeResponse, writeMessage_eq]
    refine ⟨winding.draining, ?_, ?_, ?_⟩
    · simp [served, winding.phase, phase_notMem_phaseChange, phase_ne_headAction]
    · simp [served, winding.idle, Op.startsRequest]
    · simp [served, winding.idle, winding.requests, Op.parsesRequest]
  | connectFails target next ec message => exact winding.stops_writeError _ _
  | requestSent target head body stream endpoint fromPool idleTimer =>
    refine winding.stops winding.draining rfl rfl ?_ ?_ ?_
    · simp [Op.parsesRequest]
    · simp [phase_ne_headAction]
    · simp
  | tunnelAccepted target stream endpoint fromPool =>
    apply Winding.stops_writeResponse
    exact ⟨winding.idle, winding.draining, winding.phase, winding.requests⟩
  | requestResent target stream endpoint fromPool head kept =>
    refine winding.stops winding.draining rfl rfl ?_ ?_ ?_
    · simp [Op.parsesRequest]
    · simp [phase_ne_headAction]
    · simp
  | bodyAsks advances asks =>
    exact winding.stops winding.draining rfl rfl (by simp [Op.parsesRequest]) (by simp) rfl
  | pieceSent advances delivers nonempty =>
    exact winding.stops winding.draining rfl rfl (by simp [Op.parsesRequest]) (by simp) rfl
  | finishes ends =>
    refine winding.stops winding.draining rfl (List.append_assoc _ _ _) ?_ ?_ ?_
    · simp [Op.parsesRequest]
    · simp [ends.phase_notMem]
    · simp [requestsIn_ends ends, Action.isRequest]
  | messageEnds ends resumes =>
    apply resumes.stops
    refine ⟨winding.idle, winding.draining, ?_, ?_⟩
    · simp [winding.phase, ends.phase_notMem]
    · simp [winding.requests, requestsIn_ends ends, Action.isRequest]
  | finished dest next ec resumes =>
    apply resumes.stops
    refine ⟨winding.idle, winding.draining, ?_, ?_⟩
    · simp [winding.phase]
    · simp [winding.requests, Action.isRequest]
  | responseMore progress =>
    exact winding.stops winding.draining rfl rfl (by simp [Op.parsesRequest]) (by simp) rfl
  | responseFails ec progress => exact winding.closed.stops_writeError _ _
  | upgradeAnswered progress idleTimer upgrades =>
    apply Winding.stops_writeResponse
    exact winding.answered _ _ idleTimer
  | responseAnswered progress idleTimer plain =>
    apply Winding.stops_writeResponse
    exact winding.answered _ _ idleTimer
  | drainReads data examined idleTimer running =>
    exact winding.stops winding.draining rfl rfl (by simp [Op.parsesRequest]) (by simp) rfl
  | drainEnds completion => exact winding.stops_teardown

/-- What a step of a draining relay does about requests. -/
structure Halts (relay : RelaySession) (input : Input) (next : RelaySession)
    (actions : List Action) : Prop where
  draining : next.draining = true
  unentered : ¬entersRequestPhase ⟨relay, input, actions, next⟩
  requests : requestsIn actions + next.pending.countP Op.parsesRequest ≤
    relay.pending.countP Op.parsesRequest

theorem phase_notMem_arrivals (phase : Phase) (op : Op) (completion : Completion) :
    .phase phase ∉ arrivals op completion := by
  unfold arrivals
  split
  · split <;> simp
  · simp

theorem phase_notMem_teardown {phase : Phase} (different : phase ≠ .closed)
    (absent : .phase phase ∉ relay.out) : .phase phase ∉ relay.teardown.out := by
  cases running : relay.done with
  | true => rwa [teardown_of_done _ running]
  | false => simp [teardown_eq _ running, absent, phase_notMem_teardownActions different]

theorem draining_teardown (relay : RelaySession) : relay.teardown.draining = relay.draining := by
  exact teardown_cases relay (fun _ => rfl) fun _ => rfl

/-- A step that leaves what is outstanding alone. -/
theorem Halts.still {input : Input} {next : RelaySession} {actions : List Action}
    (draining : next.draining = true) (unentered : .phase .request ∉ actions)
    (unparsed : requestsIn actions = 0) (outstanding : next.pending = input.left relay.pending)
    (fewer : next.pending.countP Op.parsesRequest ≤ relay.pending.countP Op.parsesRequest) :
    Halts relay input next actions := by
  refine ⟨draining, ?_, by omega⟩
  rintro (entered | ⟨op, opMem, -⟩)
  · exact unentered entered
  · simp [started, outstanding] at opMem

/-- A step in which one direction of a tunnel goes on. -/
theorem Halts.carried {input : Input} {next : RelaySession} {actions : List Action}
    (draining : next.draining = true) (unentered : .phase .request ∉ actions)
    (unparsed : requestsIn actions = 0)
    (carrying : ∀ op ∈ next.pending, ∃ src dst, op.Carries src dst) :
    Halts relay input next actions := by
  have others : ∀ op ∈ next.pending, op.startsRequest = false ∧ op.parsesRequest = false := by
    intro op opMem
    rcases carrying op opMem with ⟨src, dst, rfl | rfl⟩
    · exact ⟨rfl, rfl⟩
    · exact ⟨rfl, rfl⟩
  refine ⟨draining, ?_, ?_⟩
  · rintro (entered | ⟨op, opMem, starts⟩)
    · exact unentered entered
    · simp [(others op (List.mem_of_mem_drop opMem)).1] at starts
  · have none : next.pending.countP Op.parsesRequest = 0 := by
      rw [List.countP_eq_zero]
      intro op opMem parses
      simp [(others op opMem).2] at parses
    omega

theorem Stops.halts (waits : relay.pending = [op])
    (stops : Stops ([op].countP Op.parsesRequest) after) :
    Halts relay (.complete op completion) { after with out := [] } after.out := by
  refine ⟨stops.draining, ?_, waits ▸ stops.requests⟩
  rintro (entered | ⟨op', opMem, starts⟩)
  · exact stops.phase entered
  · have inPending : op' ∈ after.pending := List.mem_of_mem_drop opMem
    simp [stops.fresh op' inPending] at starts

theorem Outcome.halts {input : Input} (outcome : relay.Outcome input after)
    (draining : relay.draining = true) : Halts relay input { after with out := [] } after.out := by
  cases outcome with
  | exchange waits awaits fits handled =>
    exact (handled.stops ⟨rfl, draining, phase_notMem_arrivals _ _ _, requestsIn_arrivals _ _⟩).halts
      waits
  | tunnel bridging holds directions carries outstanding fits carried =>
    have stays := fun op opMem => (carried.carriesOn rfl directions op opMem).exists_carries
    cases carried with
    | forwards data examined nonempty idleTimer running =>
      refine Halts.carried draining ?_ ?_ stays
      · simp [phase_notMem_arrivals]
      · simp [Action.isRequest]
    | reads idleTimer running =>
      refine Halts.carried draining ?_ ?_ stays
      · simp [phase_notMem_arrivals]
      · simp [Action.isRequest]
    | ends =>
      refine Halts.carried ((draining_teardown _).trans draining) ?_ ?_ stays
      · exact phase_notMem_teardown (by simp) (phase_notMem_arrivals _ _ _)
      · simp [requestsIn_teardown]
  | ignored done carries outstanding fits =>
    refine Halts.carried draining ?_ ?_ ?_
    · exact phase_notMem_arrivals _ _ _
    · exact requestsIn_arrivals _ _
    · simp
  | expired kick armed => exact .still draining (by simp) rfl rfl le_rfl
  | timedOut kick expired queued =>
    refine .still ((draining_teardown _).trans draining) ?_ ?_ (pending_teardown _) ?_
    · exact phase_notMem_teardown (by simp) (by simp)
    · simp [requestsIn_teardown, Action.isRequest]
    · simp [pending_teardown]
  | shutsDown running waiting => exact .still rfl (by simp) rfl rfl le_rfl
  | drains running busy => exact .still rfl (by simp) rfl rfl le_rfl
  | alreadyClosed done => exact .still draining (by simp) rfl rfl le_rfl

end Requests

/-! ## After the response -/

/-- What a relay does to its client's stream; teardown shows as the change to its phase. -/
def Action.onClient : Action → Bool
  | .read .client _ | .takeHeaders .client | .write .client _ | .sendHeaders .client _ => true
  | .shutdown .client | .phase .closed => true
  | _ => false

/-- Something is made of what was read. -/
def Action.usesInput : Action → Bool
  | .request _ | .connect _ | .requestTo _ _ | .response _ _ | .delivered _ _ => true
  | .write _ _ | .sendHeaders _ _ => true
  | _ => false

/-- What the client sees. -/
def clientView (actions : List Action) : List Action := actions.filter Action.onClient

/-- Only the end of the client's stream is awaited. -/
def Drains (relay : RelaySession) : Prop :=
  relay.pending = [.drainRead] ∨ relay.done = true ∧ relay.pending = []

/-- At most one shutdown, then reads, then at most one teardown. -/
def WindsDown (actions : List Action) (done : Bool) : Prop :=
  (∀ action ∈ actions, action.usesInput = false) ∧
    ∃ closing reads ending, clientView actions =
        closing ++ List.replicate reads (.read .client 4096) ++ ending ∧
      (closing = [] ∨ closing = [.shutdown .client]) ∧
      (ending = [] ∨ done = true ∧ ending = [.phase .closed, .shutdown .client])

section Response

variable {relay after next : RelaySession}

theorem clientView_append (first second : List Action) :
    clientView (first ++ second) = clientView first ++ clientView second :=
  List.filter_append first second

theorem unused_arrivals (op : Op) (completion : Completion) :
    clientView (arrivals op completion) = [] ∧
      ∀ action ∈ arrivals op completion, action.usesInput = false := by
  unfold arrivals
  split
  · split
    · exact ⟨rfl, by simp [Action.usesInput]⟩
    · exact ⟨rfl, by simp⟩
  · exact ⟨rfl, by simp⟩

theorem clientView_closeActions : clientView relay.closeActions = [] := by
  unfold closeActions
  cases relay.backend <;> rfl

theorem unused_closeActions : ∀ action ∈ relay.closeActions, action.usesInput = false := by
  unfold closeActions
  cases relay.backend <;> simp [Action.usesInput]

/-- The first teardown. -/
theorem clientView_teardownActions (reached : relay.phase ≠ .closed) :
    clientView relay.teardownActions = [.phase .closed, .shutdown .client] := by
  rw [teardownActions, if_neg reached]
  change .phase .closed :: .shutdown .client :: clientView relay.closeActions = _
  rw [clientView_closeActions]

theorem unused_teardownActions : ∀ action ∈ relay.teardownActions, action.usesInput = false := by
  intro action actionMem
  rw [teardownActions, List.mem_append, List.mem_cons] at actionMem
  rcases actionMem with changes | rfl | closes
  · split at changes
    · simp at changes
    · rw [List.mem_singleton] at changes
      rw [changes]
      rfl
  · rfl
  · exact unused_closeActions action closes

theorem At.ne_closed {phases : List Phase} (reached : relay.At phases)
    (others : .closed ∉ phases) (running : relay.done = false) : relay.phase ≠ .closed := by
  rintro isClosed
  rcases reached with done | isPhase
  · simp [running] at done
  · exact others (isClosed ▸ isPhase)

/-- How a step of a relay that drains its client goes on. -/
inductive Wanes (before done : Bool) (actions : List Action) : Prop where
  | silent (same : done = before) (unseen : clientView actions = [])
  | reads (running : before = false) (stays : done = false)
      (seen : clientView actions = [.read .client 4096])
  | ends (running : before = false) (torn : done = true)
      (seen : clientView actions = [.phase .closed, .shutdown .client])

/-- One more step while a relay winds down. -/
theorem WindsDown.append {earlier actions : List Action} {before done : Bool}
    (winds : WindsDown earlier before) (wanes : Wanes before done actions)
    (unused : ∀ action ∈ actions, action.usesInput = false) :
    WindsDown (earlier ++ actions) done := by
  rcases winds with ⟨unusedEarlier, closing, reads, ending, isView, isClosing, isEnding⟩
  refine ⟨List.forall_mem_append.mpr ⟨unusedEarlier, unused⟩, ?_⟩
  cases wanes with
  | silent same unseen =>
    refine ⟨closing, reads, ending, ?_, isClosing, same ▸ isEnding⟩
    rw [clientView_append, unseen, List.append_nil, isView]
  | reads running stays seen =>
    have open' : ending = [] := by simpa [running] using isEnding
    refine ⟨closing, reads + 1, [], ?_, isClosing, .inl rfl⟩
    rw [clientView_append, seen, isView, open', List.replicate_succ']
    simp
  | ends running torn seen =>
    have open' : ending = [] := by simpa [running] using isEnding
    refine ⟨closing, reads, _, ?_, isClosing, .inr ⟨torn, rfl⟩⟩
    rw [clientView_append, seen, isView, open', List.append_nil]

theorem Drains.teardown (drains : relay.Drains) : relay.teardown.Drains := by
  cases running : relay.done with
  | true => rwa [teardown_of_done _ running]
  | false =>
    rw [teardown_eq _ running]
    rcases drains with waits | ⟨done, -⟩
    · exact .inl waits
    · simp [running] at done

/-- The end of a relay that has closed its backend. -/
theorem wanes_teardown {before : Bool} (isDone : relay.done = before)
    (unseen : clientView relay.out = []) (unused : ∀ action ∈ relay.out, action.usesInput = false)
    (reached : relay.done = false → relay.phase ≠ .closed) :
    Wanes before relay.teardown.done relay.teardown.out ∧
      ∀ action ∈ relay.teardown.out, action.usesInput = false := by
  subst isDone
  cases running : relay.done with
  | true =>
    rw [teardown_of_done _ running, running]
    exact ⟨.silent rfl unseen, unused⟩
  | false =>
    rw [teardown_eq _ running]
    refine ⟨.ends rfl rfl ?_, List.forall_mem_append.mpr ⟨unused, unused_teardownActions⟩⟩
    rw [clientView_append, unseen, clientView_teardownActions (reached running)]
    rfl

theorem Handled.wanes (handled : relay.Handled .drainRead completion after)
    (unseen : clientView relay.out = []) (unused : ∀ action ∈ relay.out, action.usesInput = false)
    (idle : relay.pending = []) (late : relay.At [.forward, .response]) :
    after.Drains ∧ Wanes relay.done after.done after.out ∧
      ∀ action ∈ after.out, action.usesInput = false := by
  cases handled with
  | drainReads data examined idleTimer running =>
    refine ⟨.inl (by simp [idle]), .reads running running ?_, ?_⟩
    · rw [clientView_append, unseen]
      rfl
    · exact List.forall_mem_append.mpr ⟨unused, by simp [Action.usesInput]⟩
  | drainEnds completion =>
    refine ⟨?_, wanes_teardown rfl unseen unused (late.ne_closed (by simp))⟩
    refine teardown_cases relay (fun running => ?_) fun _ => ?_
    · exact .inr ⟨running, idle⟩
    · exact .inr ⟨rfl, idle⟩
  | requestMore progress | requestFails _ progress | requestForwarded progress
  | requestRejected progress => simp [requestProgress] at progress
  | responseMore progress | responseFails _ progress | upgradeAnswered progress
  | responseAnswered progress => simp [responseProgress] at progress
  | bodyAsks advances | pieceSent advances => cases advances
  | finishes ends | messageEnds ends =>
    cases ends with
    | bodyFails advances | bodyEnds advances => cases advances

theorem Outcome.wanes {input : Input} (outcome : relay.Outcome input after)
    (control : relay.Control) (alive : relay.crashed = false) (drains : relay.Drains) :
    after.Drains ∧ Wanes relay.done after.done after.out ∧
      ∀ action ∈ after.out, action.usesInput = false := by
  have late : relay.At [.forward, .response] := by
    rcases drains with waits | ⟨done, -⟩
    · cases control with
      | waiting op alive pending awaits =>
        have isDrain : op = .drainRead := by simpa [pending] using waits
        subst isDrain
        exact awaits.1
      | bridged stream up down alive phase backend pending carriesUp carriesDown =>
        rcases pending with pending | pending <;> simp [pending] at waits
      | finished done => exact .inl done
      | crashed dead => simp [alive] at dead
    · exact .inl done
  cases outcome with
  | @exchange op completion after waits awaits fits handled =>
    have isDrain : op = .drainRead := by
      rcases drains with waitsDrain | ⟨-, nothing⟩
      · simpa [waits] using waitsDrain
      · simp [waits] at nothing
    subst isDrain
    rcases unused_arrivals .drainRead completion with ⟨unseen, unused⟩
    exact handled.wanes unseen unused rfl late
  | tunnel bridging holds directions carries outstanding fits carried =>
    rcases drains with waits | ⟨-, nothing⟩
    · rcases carries with rfl | rfl <;> simp [waits] at outstanding
    · simp [nothing] at outstanding
  | ignored done carries outstanding fits =>
    rcases drains with waits | ⟨-, nothing⟩
    · rcases carries with rfl | rfl <;> simp [waits] at outstanding
    · simp [nothing] at outstanding
  | expired kick armed => exact ⟨drains, .silent rfl rfl, by simp⟩
  | timedOut kick expired queued =>
    refine ⟨Drains.teardown drains, ?_⟩
    apply wanes_teardown
    · rfl
    · rfl
    · simp [Action.usesInput]
    · exact late.ne_closed (by simp)
  | shutsDown running waiting => exact absurd waiting (late.ne_request (by simp) running)
  | drains running busy => exact ⟨drains, .silent rfl rfl, by simp⟩
  | alreadyClosed done => exact ⟨drains, .silent rfl rfl, by simp⟩

/-- No response has been written in these actions. -/
def Undone (actions : List Action) : Prop := ∀ ec, .messageDone .client ec ∉ actions

theorem Undone.append {first second : List Action} (undone : Undone first)
    (undone' : Undone second) : Undone (first ++ second) := by
  intro ec ended
  rcases List.mem_append.mp ended with inFirst | inSecond
  · exact undone ec inFirst
  · exact undone' ec inSecond

theorem undone_closeActions : Undone relay.closeActions := by
  unfold closeActions
  cases relay.backend <;> simp [Undone]

theorem undone_phaseChange (phase : Phase) : Undone (relay.phaseChange phase) := by
  unfold phaseChange
  split <;> simp [Undone]

theorem undone_teardownActions : Undone relay.teardownActions := by
  apply Undone.append
  · exact undone_phaseChange .closed
  · intro ec
    simpa using undone_closeActions ec

theorem messageDone_ne_headAction (peer : Peer) (ec : Option ErrorCode) (dest : Peer)
    (codec : Codec) (bytes : Bytes) (headers : HeaderList) :
    .messageDone peer ec ≠ headAction dest codec bytes headers := by
  cases codec <;> simp [headAction]

theorem Undone.teardown (undone : Undone relay.out) : Undone relay.teardown.out := by
  cases running : relay.done with
  | true => rwa [teardown_of_done _ running]
  | false =>
    rw [teardown_eq _ running]
    exact undone.append undone_teardownActions

theorem Undone.writeResponse (undone : Undone relay.out) (head : HttpResponseHead)
    (body : Option MessageBody) (next : WriteThen) :
    Undone (relay.writeResponse head body next).out := by
  rw [RelaySession.writeResponse, writeMessage_eq]
  exact undone.append (by simp [Undone, messageDone_ne_headAction])

theorem undone_arrivals (op : Op) (completion : Completion) : Undone (arrivals op completion) := by
  unfold arrivals
  split
  · split <;> simp [Undone]
  · simp [Undone]

theorem Ends.undone {dest : Peer} {codec : Codec} {next : WriteThen} {shown : List Action}
    (ends : Ends op completion dest codec next ec shown) : Undone shown := by
  cases ends <;> simp [Undone]

/-- The end of a message is the only place where a response can be done. -/
theorem Handled.undone_or_resumes (handled : relay.Handled op completion after)
    (awaits : relay.Awaits op) (undone : Undone relay.out) :
    Undone after.out ∨ ∃ earlier dest codec body next ec, Undone earlier ∧
      relay.Writing dest codec body next ∧
      Resumes { relay with out := earlier ++ [.messageDone dest ec] } next ec after := by
  cases handled with
  | requestFails | drainEnds => exact .inl undone.teardown
  | requestForwarded progress idleTimer connects =>
    refine .inl ((undone.append (undone_phaseChange .forward)).append ?_ |>.append ?_)
    · simp [Undone]
    · simp [Undone]
  | requestRejected progress idleTimer rejects =>
    apply Or.inl
    apply Undone.writeResponse
    exact (undone.append (undone_phaseChange .forward)).append (by simp [Undone])
  | connectFails | tunnelAccepted =>
    apply Or.inl
    apply Undone.writeResponse
    exact undone
  | responseFails =>
    apply Or.inl
    apply Undone.writeResponse
    exact undone.append undone_closeActions
  | upgradeAnswered | responseAnswered =>
    apply Or.inl
    apply Undone.writeResponse
    exact undone.append (by simp [Undone])
  | requestSent | requestResent =>
    exact .inl (undone.append (by simp [Undone, messageDone_ne_headAction]))
  | finishes ends => exact .inl ((undone.append ends.undone).append (by simp [Undone]))
  | messageEnds ends resumes =>
    exact .inr ⟨_, _, _, _, _, _, undone.append ends.undone, ends.writing awaits, resumes⟩
  | finished dest next ec resumes => exact .inr ⟨_, _, _, _, _, _, undone, awaits, resumes⟩
  | _ => exact .inl (undone.append (by simp [Undone]))

theorem WindsDown.cons_silent {first actions : List Action} {done : Bool}
    (winds : WindsDown actions done) (unseen : clientView first = [])
    (unused : ∀ action ∈ first, action.usesInput = false) : WindsDown (first ++ actions) done := by
  rcases winds with ⟨unusedLater, closing, reads, ending, isView, isClosing, isEnding⟩
  refine ⟨List.forall_mem_append.mpr ⟨unused, unusedLater⟩, closing, reads, ending, ?_, isClosing,
    isEnding⟩
  rw [clientView_append, unseen, List.nil_append, isView]

theorem windsDown_nil (done : Bool) : WindsDown [] done :=
  ⟨by simp, [], 0, [], rfl, .inl rfl, .inl rfl⟩

theorem finishActions_silent (keepAlive : Bool) :
    clientView (relay.finishActions keepAlive) = [] ∧ Undone (relay.finishActions keepAlive) ∧
      ∀ action ∈ relay.finishActions keepAlive, action.usesInput = false := by
  unfold finishActions
  cases relay.backend <;> cases keepAlive <;>
    exact ⟨rfl, by simp [Undone], by simp [Action.usesInput]⟩

/-- What the rest of a callback does after a response of a draining relay is written. -/
structure Closes (out : List Action) (after : RelaySession) (rest : List Action) : Prop where
  isOut : after.out = out ++ rest
  undone : Undone rest
  winds : .phase .bridge ∉ rest → after.Drains ∧ WindsDown rest after.done

theorem AfterResponse.closes (continues : relay.AfterResponse after) (idle : relay.pending = [])
    (draining : relay.draining = true) : ∃ rest, Closes relay.out after rest := by
  cases continues with
  | nextRequest idleTimer running keepAlive overTcp serving => simp [draining] at serving
  | shutDown running last =>
    refine ⟨_, rfl, by simp [Undone], fun _ => ⟨.inl (by simp [idle]), ?_⟩⟩
    exact ⟨by simp [Action.usesInput], [.shutdown .client], 1, [], rfl, .inr rfl, .inl rfl⟩
  | drain running overQuic serving => simp [draining] at serving
  | finished done =>
    refine ⟨[], (List.append_nil _).symm, by simp [Undone], fun _ => ⟨.inr ⟨done, idle⟩, ?_⟩⟩
    exact windsDown_nil _

theorem closes_teardown (idle : relay.pending = [])
    (reached : relay.done = false → relay.phase ≠ .closed) :
    ∃ rest, Closes relay.out relay.teardown rest := by
  refine teardown_cases relay (fun running => ?_) fun running => ?_
  · refine ⟨[], (List.append_nil _).symm, by simp [Undone], fun _ => ⟨.inr ⟨running, idle⟩, ?_⟩⟩
    exact windsDown_nil _
  · refine ⟨_, rfl, undone_teardownActions, fun _ => ⟨.inr ⟨rfl, idle⟩, ?_⟩⟩
    refine ⟨unused_teardownActions, [], 0, _, ?_, .inl rfl, .inr ⟨rfl, rfl⟩⟩
    exact clientView_teardownActions (reached running)

theorem Resumes.closes {codec : Codec} {body : Option MessageBody} {next : WriteThen}
    (resumes : relay.Resumes next ec after) (idle : relay.pending = [])
    (draining : relay.draining = true) (writing : relay.Writing .client codec body next)
    (outside : relay.phase ≠ .bridge) : ∃ rest, Closes relay.out after rest := by
  have toBackend : ∀ retryAllowed, next ≠ .requestWritten retryAllowed := by
    rintro retryAllowed rfl
    rcases writing with ⟨stream, -, isDest, -⟩
    simp at isDest
  have reached := (Writing.at_later writing).ne_closed (by simp)
  cases resumes with
  | awaitsResponse retryAllowed | losesBackend retryAllowed | writeFails retryAllowed =>
    exact absurd rfl (toBackend retryAllowed)
  | reconnects => exact absurd rfl (toBackend true)
  | exchanged keepAlive ec continues =>
    rcases continues.closes idle draining with ⟨rest, isOut, undone, winds⟩
    rcases relay.finishActions_silent keepAlive with ⟨unseen, finished, unused⟩
    refine ⟨_, isOut.trans (List.append_assoc _ _ _), finished.append undone, ?_⟩
    intro unbridged
    rcases winds fun inRest => unbridged (List.mem_append_right _ inRest) with ⟨drains, winds⟩
    exact ⟨drains, winds.cons_silent unseen unused⟩
  | rejected ec continues => exact continues.closes idle draining
  | bridges next stream fromPool isBackend opens =>
    refine ⟨_, List.append_assoc _ _ _, (undone_phaseChange .bridge).append (by simp [Undone]), ?_⟩
    intro unbridged
    simp [phaseChange, outside] at unbridged
  | bridgesNothing next fromPool gone opens =>
    refine ⟨_, List.append_assoc _ _ _, (undone_phaseChange .bridge).append (by simp [Undone]), ?_⟩
    intro unbridged
    simp [phaseChange, outside] at unbridged
  | bridgeFails next ec opens => exact closes_teardown idle reached

theorem undone_parseAction (peer : Peer) (codec : Codec) : Undone [parseAction peer codec] := by
  cases codec <;> simp [Undone, parseAction]

theorem AfterResponse.undone (continues : relay.AfterResponse after) (undone : Undone relay.out) :
    Undone after.out := by
  cases continues with
  | nextRequest => exact (undone.append (undone_phaseChange .request)).append (by simp [Undone])
  | shutDown | drain => exact undone.append (by simp [Undone])
  | finished => exact undone

/-- The callback of a message writer finishes no other message. -/
theorem Resumes.undone {next : WriteThen} (resumes : relay.Resumes next ec after)
    (undone : Undone relay.out) : Undone after.out := by
  cases resumes with
  | awaitsResponse =>
    exact (undone.append (undone_phaseChange .response)).append (undone_parseAction _ _)
  | losesBackend => exact (undone.append (undone_phaseChange .response)).append (by simp [Undone])
  | reconnects => exact (undone.append undone_closeActions).append (by simp [Undone])
  | writeFails =>
    apply Undone.writeResponse
    exact undone.append undone_closeActions
  | exchanged keepAlive ec continues =>
    exact continues.undone (undone.append (relay.finishActions_silent keepAlive).2.1)
  | rejected ec continues => exact continues.undone undone
  | bridges | bridgesNothing =>
    exact (undone.append (undone_phaseChange .bridge)).append (by simp [Undone])
  | bridgeFails => exact undone.teardown

theorem Carried.undone {src dst : Peer} (carried : relay.Carried src dst op completion after)
    (undone : Undone relay.out) : Undone after.out := by
  cases carried with
  | ends => exact undone.teardown
  | _ => exact undone.append (by simp [Undone])

/-- A response that is the only one in a list of actions splits it in one way. -/
theorem eq_of_split {first rest before later : List Action} {ec ec' : Option ErrorCode}
    (undone : Undone first) (undoneRest : Undone rest)
    (same : first ++ .messageDone .client ec :: rest =
      before ++ .messageDone .client ec' :: later) : later = rest := by
  rcases List.append_eq_append_iff.mp same with ⟨more, rfl, isRest⟩ | ⟨more, rfl, isLater⟩
  · cases more with
    | nil => exact (List.cons.inj isRest).2.symm
    | cons action more =>
      have inRest : .messageDone .client ec' ∈ rest := by simp [(List.cons.inj isRest).2]
      exact absurd inRest (undoneRest ec')
  · cases more with
    | nil => exact (List.cons.inj isLater).2
    | cons action more =>
      have inFirst : .messageDone .client ec' ∈ before ++ action :: more := by
        simp [(List.cons.inj isLater).1]
      exact absurd inFirst (undone ec')

theorem Outcome.closes {input : Input} {before later : List Action}
    (outcome : relay.Outcome input after) (draining : relay.draining = true)
    (bridging : relay.Bridges) (split : after.out = before ++ .messageDone .client ec :: later)
    (unbridged : .phase .bridge ∉ later) : after.Drains ∧ WindsDown later after.done := by
  have ended : .messageDone .client ec ∈ after.out := by simp [split]
  cases outcome with
  | exchange waits awaits fits handled =>
    have outside : relay.phase ≠ .bridge := bridging.outside waits awaits
    rcases handled.undone_or_resumes (awaits.update _ _ _ _) (undone_arrivals _ _) with
      undone | ⟨earlier, dest, codec, body, next, ec', undone, writing, resumes⟩
    · exact absurd ended (undone ec)
    · cases dest with
      | backend stream =>
        have nothing := resumes.undone (undone.append (by simp [Undone]))
        exact absurd ended (nothing ec)
      | client =>
        rcases resumes.closes rfl draining (writing.update _ _) outside with
          ⟨rest, isOut, undoneRest, winds⟩
        have isRest : later = rest := by
          apply eq_of_split undone undoneRest
          rw [← split, isOut, List.append_assoc]
          rfl
        rw [isRest]
        exact winds (isRest ▸ unbridged)
  | tunnel inBridge holds directions carries outstanding fits carried =>
    have undone := carried.undone (undone_arrivals _ _)
    exact absurd ended (undone ec)
  | ignored done carries outstanding fits => exact absurd ended (undone_arrivals _ _ ec)
  | timedOut kick expired queued =>
    have undone : Undone [.idleTimeout kick] := by simp [Undone]
    exact absurd ended (Undone.teardown undone ec)
  | expired | shutsDown | drains | alreadyClosed => simp at ended

end Response

/-! ## Whole runs -/

section Runs

variable {relay closing last : RelaySession} {actions : List Action} {log : List Transition}

/-- What holds of a relay that has been told to close. -/
structure ToldToClose (closing : RelaySession) (log : List Transition) (last : RelaySession) :
    Prop where
  control : last.Control
  bridges : last.Bridges
  draining : last.draining = true
  unentered : ∀ transition ∈ log, ¬entersRequestPhase transition
  requests : requestsIn (performed log) + last.pending.countP Op.parsesRequest ≤
    closing.pending.countP Op.parsesRequest
  answered : ∀ before ec later, performed log = before ++ .messageDone .client ec :: later →
    .phase .bridge ∉ later → last.Drains ∧ WindsDown later last.done
  drained : closing.Drains → last.Drains ∧ WindsDown (performed log) last.done

theorem closing_of_runs (control : closing.Control) (bridges : closing.Bridges)
    (draining : closing.draining = true) (runs : Runs (logged step) anyInput closing log last) :
    ToldToClose closing log last := by
  apply Runs.invariant ?_ ?_ runs
  · refine ⟨control, bridges, draining, by simp, by simp [performed], by simp [performed], ?_⟩
    intro drains
    exact ⟨drains, windsDown_nil _⟩
  · intro log relay input next added kept _ recorded
    rcases logged_eq_some_iff.mp recorded with ⟨actions, taken, rfl⟩
    have alive : relay.crashed = false := (stepped_of_step taken).choose_spec.1
    rcases outcome_of_step kept.control taken with ⟨after, outcome, controlled, rfl, rfl⟩
    have halts := outcome.halts kept.draining
    have total := performed_snoc log relay input after.out { after with out := [] }
    refine ⟨controlled.update _ _ _, outcome.bridges kept.bridges, halts.draining, ?_, ?_, ?_, ?_⟩
    · simp only [List.forall_mem_append, List.forall_mem_singleton]
      exact ⟨kept.unentered, halts.unentered⟩
    · have earlier := kept.requests
      have now := halts.requests
      rw [total, requestsIn_append]
      omega
    · intro before ec later split unbridged
      rw [total] at split
      rcases List.append_eq_append_iff.mp split with ⟨more, rfl, isNew⟩ | ⟨more, isOld, isLater⟩
      · exact outcome.closes kept.draining kept.bridges isNew unbridged
      · cases more with
        | nil =>
          have isNew : after.out = [] ++ .messageDone .client ec :: later := isLater.symm
          exact outcome.closes kept.draining kept.bridges isNew unbridged
        | cons action more =>
          rcases List.cons.inj isLater with ⟨rfl, rfl⟩
          have earlier := kept.answered before ec more isOld
            fun inMore => unbridged (List.mem_append_left _ inMore)
          rcases outcome.wanes kept.control alive earlier.1 with ⟨drains, wanes, unused⟩
          exact ⟨drains, earlier.2.append wanes unused⟩
    · intro drains
      have earlier := kept.drained drains
      rcases outcome.wanes kept.control alive earlier.1 with ⟨drains, wanes, unused⟩
      rw [total]
      exact ⟨drains, earlier.2.append wanes unused⟩

theorem Control.parses_le_one (control : relay.Control) (alive : relay.crashed = false) :
    relay.pending.countP Op.parsesRequest ≤ 1 := by
  cases control with
  | waiting op alive pending awaits =>
    rw [pending]
    exact List.countP_le_length
  | bridged stream up down alive phase backend pending carriesUp carriesDown =>
    rcases carriesUp with rfl | rfl <;> rcases carriesDown with rfl | rfl <;>
      rcases pending with pending | pending <;> simp [pending, Op.parsesRequest]
  | finished done alive pending =>
    rcases pending with pending | ⟨left, src, dst, pending, -⟩
    · simp [pending]
    · rw [pending]
      exact List.countP_le_length
  | crashed dead => simp [alive] at dead

/-- A relay that drains its client waits for nothing else. -/
theorem Control.drains_alone (control : relay.Control) (alive : relay.crashed = false)
    (drains : .drainRead ∈ relay.pending) : relay.pending = [.drainRead] := by
  cases control with
  | waiting op alive pending awaits =>
    rw [pending, List.mem_singleton] at drains
    rw [pending, drains]
  | bridged stream up down alive phase backend pending carriesUp carriesDown =>
    rcases carriesUp with rfl | rfl <;> rcases carriesDown with rfl | rfl <;>
      rcases pending with pending | pending <;> simp [pending] at drains
  | finished done alive pending =>
    rcases pending with pending | ⟨left, src, dst, pending, carries⟩
    · simp [pending] at drains
    · rcases carries with rfl | rfl <;> simp [pending] at drains
  | crashed dead => simp [alive] at dead

/--
Draining relays stop: after `graceful_close` the relay does not enter `request_phase` again,
so that the only request it can still parse is the one it was waiting for.  Once a response
is written and no tunnel follows, it shuts the client's stream down at most once, reads it
without using what it reads, and is torn down at most once; and so it goes on if it was
reading to the end already.
-/
theorem draining_relays_stop (reachable : relay.Reachable) (running : relay.done = false)
    (told : relay.step .gracefulClose = some (closing, actions))
    (runs : Runs (logged step) anyInput closing log last) :
    (∀ transition ∈ log, ¬entersRequestPhase transition) ∧
    requestsIn (performed log) ≤ relay.pending.countP Op.parsesRequest ∧
    relay.pending.countP Op.parsesRequest ≤ 1 ∧
    (∀ before ec later, performed log = before ++ .messageDone .client ec :: later →
      .phase .bridge ∉ later → WindsDown later last.done) ∧
    (.drainRead ∈ relay.pending → WindsDown (performed log) last.done) := by
  have control := reachable.control
  have alive : relay.crashed = false := (stepped_of_step told).choose_spec.1
  have same : closing.pending = relay.pending ∧ closing.draining = true := by
    rcases outcome_of_step control told with ⟨after, outcome, -, rfl, -⟩
    cases outcome with
    | shutsDown | drains => exact ⟨rfl, rfl⟩
    | alreadyClosed done => simp [running] at done
  have bridges : closing.Bridges := by
    rcases outcome_of_step control told with ⟨after, outcome, -, rfl, -⟩
    exact outcome.bridges reachable.bridges
  have kept := closing_of_runs (control_step control told) bridges same.2 runs
  refine ⟨kept.unentered, ?_, control.parses_le_one alive, ?_, ?_⟩
  · have requests := kept.requests
    rw [same.1] at requests
    omega
  · intro before ec later split unbridged
    exact (kept.answered before ec later split unbridged).2
  · intro drains
    have only : closing.Drains := by
      rw [Drains, same.1]
      exact .inl (control.drains_alone alive drains)
    exact (kept.drained only).2

/-- The request that a closing relay was waiting for is answered, and the client closes. -/
def lastRequest : List Input :=
  let message := ascii "no route for host\n"
  [.complete (.readHead .client []) (.read (.ok (ascii "GET / HTTP/1.1\r\n\r\n")) 0),
    .complete (.writeHead .client .h1 (some ⟨.client, .buffer message 0⟩) .errorWritten)
      (.written none),
    .complete (.writeBody .client .h1 ⟨.client, .buffer message message.length⟩ .errorWritten)
      (.written none),
    .complete .drainRead (.read (.error .eof) 0)]

theorem draining_relays_stop_lastRequest :
    ∃ closing actions log last,
      (start .h1 [] 0).step .gracefulClose = some (closing, actions) ∧
        Runs (logged step) anyInput closing log last ∧
        requestsIn (performed log) = 1 ∧ last.done = true ∧
        ∀ transition ∈ log, ¬entersRequestPhase transition := by
  have reached : ((start .h1 [] 0).step .gracefulClose).any (fun told =>
      (run (logged step) (fun _ _ => true) told.1 lastRequest).any fun final =>
        decide (requestsIn (performed final.2) = 1 ∧ final.1.done = true)) = true := by
    decide +kernel
  rcases (Option.any_eq_true_iff_get _ _).mp reached with ⟨isSome, runs⟩
  have told := Option.eq_some_of_isSome isSome
  rcases exists_runs_any runs with ⟨log, last, runs, one, done⟩
  have reachable : (start .h1 [] 0).Reachable := ⟨.h1, [], 0, [], .refl⟩
  exact ⟨_, _, log, last, told, runs, one, done,
    (draining_relays_stop reachable rfl told runs).1⟩

end Runs

end RelaySession

end ReverseProxy
