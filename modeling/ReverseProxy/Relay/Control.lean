import ReverseProxy.Relay.Session

/-!
# Where a relay can be between two callbacks

A relay is either waiting for exactly one operation or bridging two streams with one
operation in each direction.  `Control` says which operation goes with which phase and
which members are set then.  Teardown does not change what a relay is waiting for; it
only closes the backend and gives up the phase.

The equations at the start describe each helper of the relay as one record update.
-/

namespace ReverseProxy

open Text

namespace RelaySession

/-! ## The helpers as record updates -/

section Helpers

variable (relay : RelaySession)

theorem kickIdleTimer_eq :
    ∃ idleTimer, relay.kickIdleTimer = { relay with idleTimer := idleTimer } := by
  unfold kickIdleTimer
  split
  · exact ⟨relay.idleTimer, rfl⟩
  · exact ⟨_, rfl⟩

theorem gotoPhase_eq (phase : Phase) :
    relay.gotoPhase phase =
      { relay with
        phase
        out := relay.out ++ if relay.phase = phase then [] else [.phase phase] } := by
  unfold gotoPhase
  split
  · rename_i same
    subst same
    simp
  · rfl

/-- What `close_backend` adds to the trace. -/
def closeActions : List Action :=
  (relay.backend.map fun stream => .shutdown (.backend stream)).toList

theorem closeBackend_eq :
    relay.closeBackend =
      { relay with backend := none, out := relay.out ++ relay.closeActions } := by
  unfold closeBackend closeActions
  split
  · rename_i closed
    simp only [closed, Option.map_none, Option.toList_none, List.append_nil]
    rw [← closed]
  · rename_i stream connected
    simp [emit, connected]

theorem teardown_of_done (done : relay.done = true) : relay.teardown = relay := by
  simp [teardown, done]

/-- What the first effective teardown adds to the trace. -/
def teardownActions : List Action :=
  (if relay.phase = .closed then [] else [.phase .closed]) ++ .shutdown .client ::
    relay.closeActions

theorem teardown_eq (running : relay.done = false) :
    relay.teardown =
      { relay with
        done := true
        phase := .closed
        backend := none
        idleTimer := { relay.idleTimer with armed := none }
        out := relay.out ++ relay.teardownActions } := by
  simp [teardown, running, gotoPhase_eq, closeBackend_eq, emit, teardownActions, closeActions]

/-- A relay that is done already stays as it is. -/
@[elab_as_elim]
theorem teardown_cases {motive : RelaySession → Prop} (finished : relay.done = true → motive relay)
    (tears : relay.done = false → motive
      { relay with
        done := true
        phase := .closed
        backend := none
        idleTimer := { relay.idleTimer with armed := none }
        out := relay.out ++ relay.teardownActions }) : motive relay.teardown := by
  cases running : relay.done with
  | true =>
    rw [teardown_of_done _ running]
    exact finished running
  | false =>
    rw [teardown_eq _ running]
    exact tears running

theorem pending_teardown : relay.teardown.pending = relay.pending := by
  exact teardown_cases relay (fun _ => rfl) fun _ => rfl

theorem drainClient_eq (running : relay.done = false) :
    relay.drainClient =
      { relay with
        pending := relay.pending ++ [.drainRead]
        out := relay.out ++ [.read .client 4096] } := by
  rw [drainClient, if_neg (by simp [running])]
  rfl

theorem gracefullyCloseClient_eq (running : relay.done = false) :
    relay.gracefullyCloseClient =
      { relay with
        draining := true
        pending := relay.pending ++ [.drainRead]
        out := relay.out ++ [.shutdown .client, .read .client 4096] } := by
  rw [gracefullyCloseClient, if_neg (by simp [running]), drainClient_eq]
  · simp [emit]
  · exact running

/-- The action that writes the head of a message. -/
def headAction (dest : Peer) (codec : Codec) (bytes : Bytes) (headers : HeaderList) : Action :=
  match codec with
  | .h1 => .write dest bytes
  | .h3 => .sendHeaders dest headers

theorem writeMessage_eq (dest : Peer) (codec : Codec) (bytes : Bytes) (headers : HeaderList)
    (body : Option MessageBody) (next : WriteThen) :
    relay.writeMessage dest codec bytes headers body next =
      { relay with
        pending := relay.pending ++ [.writeHead dest codec body next]
        out := relay.out ++ [headAction dest codec bytes headers] } := by
  cases codec <;> rfl

/-- What `finish_backend` adds to the trace. -/
def finishActions (keepAlive : Bool) : List Action :=
  (relay.backend.map fun stream =>
    if keepAlive then .release relay.backendEndpoint stream
    else .shutdown (.backend stream)).toList

theorem finishBackend_eq (keepAlive : Bool) :
    relay.finishBackend keepAlive =
      { relay with
        pendingHead := none
        pendingBody := none
        backend := none
        out := relay.out ++ relay.finishActions keepAlive } := by
  unfold finishBackend finishActions
  cases connected : relay.backend with
  | none => simp
  | some stream => cases keepAlive <;> simp [emit, closeBackend]

end Helpers

/-! ## Waiting states -/

/-- A relay in the middle of a callback: nothing else of it is outstanding. -/
structure Free (relay : RelaySession) : Prop where
  alive : relay.crashed = false
  idle : relay.pending = []

/-- The phase is one of these, unless the relay has been torn down. -/
def At (relay : RelaySession) (phases : List Phase) : Prop :=
  relay.done = true ∨ relay.phase ∈ phases

/-- The relay holds this backend stream, unless teardown has closed it. -/
def Holds (relay : RelaySession) (stream : TransportStream) : Prop :=
  relay.backend = some stream ∨ relay.done = true ∧ relay.backend = none

/-- An exchange with this backend stream, over the codec of its endpoint. -/
def Serves (relay : RelaySession) (stream : TransportStream) : Prop :=
  relay.Holds stream ∧ relay.backendCodec = codecFor relay.backendEndpoint ∧
    stream.protocol = relay.backendEndpoint.protocol

/-- What is known while a message is written, from the callback its writer was given. -/
def Writing (relay : RelaySession) (dest : Peer) (codec : Codec) (body : Option MessageBody) :
    WriteThen → Prop
  | .requestWritten _ =>
    ∃ stream, relay.Serves stream ∧ dest = .backend stream ∧ codec = relay.backendCodec ∧
      relay.At [.forward] ∧ relay.pendingHead.isSome ∧ ∀ part ∈ body, part.peer = .client
  | .responseWritten _ =>
    ∃ stream, relay.Serves stream ∧ dest = .client ∧ codec = relay.clientCodec ∧
      relay.At [.response] ∧ ∀ part ∈ body, part.peer = .backend stream
  | .upgraded =>
    ∃ stream, relay.Holds stream ∧ dest = .client ∧ codec = relay.clientCodec ∧
      relay.At [.response] ∧ body = none
  | .tunnelOpened =>
    ∃ stream, relay.Holds stream ∧ dest = .client ∧ codec = relay.clientCodec ∧
      relay.At [.forward] ∧ body = none
  | .errorWritten =>
    relay.backend = none ∧ dest = .client ∧ codec = relay.clientCodec ∧
      relay.At [.forward, .response] ∧
      ∀ part ∈ body, ∃ data readPos, part.source = .buffer data readPos

/-- What is known while an operation of an exchange is outstanding. -/
def Awaits (relay : RelaySession) : Op → Prop
  | .readHead .client _ => relay.At [.request] ∧ relay.clientCodec = .h1 ∧ relay.backend = none
  | .takeHeaders .client => relay.At [.request] ∧ relay.clientCodec = .h3 ∧ relay.backend = none
  | .readHead (.backend stream) _ =>
    relay.At [.response] ∧ relay.backendCodec = .h1 ∧ relay.Serves stream
  | .takeHeaders (.backend stream) =>
    relay.At [.response] ∧ relay.backendCodec = .h3 ∧ relay.Serves stream
  | .connect target next =>
    relay.At [.forward] ∧ relay.backend = none ∧
      (next = .reconnected →
        relay.pendingHead.isSome ∧ target = .fresh relay.backendEndpoint ∧
          relay.backendCodec = codecFor relay.backendEndpoint)
  | .writeHead dest codec body next => relay.Writing dest codec body next
  | .readBody dest codec body _ next => relay.Writing dest codec (some body) next
  | .writeBody dest codec body next => relay.Writing dest codec (some body) next
  | .finish dest next => relay.Writing dest .h3 none next
  | .drainRead => relay.At [.forward, .response] ∧ relay.backend = none
  | .tunnelRead _ _ | .tunnelWrite _ _ => False

/-- One direction of a tunnel. -/
def Op.Carries (op : Op) (src dst : Peer) : Prop :=
  op = .tunnelRead src dst ∨ op = .tunnelWrite src dst

/-- The two directions of a bridge over a stream: one is left, the other is given. -/
def Directions (stream : TransportStream) (left : Op) (src dst : Peer) : Prop :=
  src = .client ∧ dst = .backend stream ∧ left.Carries (.backend stream) .client ∨
    src = .backend stream ∧ dst = .client ∧ left.Carries .client (.backend stream)

/-- What is known between two callbacks of a relay. -/
inductive Control (relay : RelaySession) : Prop where
  | waiting (op : Op) (alive : relay.crashed = false) (pending : relay.pending = [op])
      (awaits : relay.Awaits op)
  | bridged (stream : TransportStream) (up down : Op) (alive : relay.crashed = false)
      (phase : relay.At [.bridge]) (backend : relay.Holds stream)
      (pending : relay.pending = [up, down] ∨ relay.pending = [down, up])
      (carriesUp : up.Carries .client (.backend stream))
      (carriesDown : down.Carries (.backend stream) .client)
  /-- Torn down; at most one direction of a bridge is left over. -/
  | finished (done : relay.done = true) (alive : relay.crashed = false)
      (pending : relay.pending = [] ∨
        ∃ left src dst, relay.pending = [left] ∧ left.Carries src dst)
  | crashed (dead : relay.crashed = true)

/-! ## Basic facts -/

section Facts

variable {relay : RelaySession}

theorem Awaits.update {op : Op} (awaits : relay.Awaits op) (idleTimer : IdleTimer)
    (draining : Bool) (pending : List Op) (out : List Action) :
    Awaits { relay with idleTimer, draining, pending, out } op := by
  cases op with
  | readHead peer buf => cases peer <;> exact awaits
  | takeHeaders peer => cases peer <;> exact awaits
  | writeHead dest codec body next => cases next <;> exact awaits
  | readBody dest codec body capacity next => cases next <;> exact awaits
  | writeBody dest codec body next => cases next <;> exact awaits
  | finish dest next => cases next <;> exact awaits
  | _ => exact awaits

theorem Control.update (control : relay.Control) (idleTimer : IdleTimer) (draining : Bool)
    (out : List Action) : Control { relay with idleTimer, draining, out } := by
  cases control with
  | waiting op alive pending awaits => exact .waiting op alive pending (awaits.update _ _ _ _)
  | bridged stream up down alive phase backend pending carriesUp carriesDown =>
    exact .bridged stream up down alive phase backend pending carriesUp carriesDown
  | finished done alive pending => exact .finished done alive pending
  | crashed dead => exact .crashed dead

/-- A relay whose streams have been closed under it. -/
def tornDown (relay : RelaySession) (idleTimer : IdleTimer) (out : List Action) : RelaySession :=
  { relay with done := true, phase := .closed, backend := none, idleTimer, out }

theorem Serves.tornDown {stream : TransportStream} (serves : relay.Serves stream)
    (idleTimer : IdleTimer) (out : List Action) : (relay.tornDown idleTimer out).Serves stream :=
  ⟨.inr ⟨rfl, rfl⟩, serves.2⟩

theorem Writing.tornDown {dest : Peer} {codec : Codec} {body : Option MessageBody}
    {next : WriteThen} (writing : relay.Writing dest codec body next) (idleTimer : IdleTimer)
    (out : List Action) : (relay.tornDown idleTimer out).Writing dest codec body next := by
  cases next with
  | requestWritten retryAllowed =>
    rcases writing with ⟨stream, serves, isDest, isCodec, -, kept, fromClient⟩
    exact ⟨stream, serves.tornDown _ _, isDest, isCodec, .inl rfl, kept, fromClient⟩
  | responseWritten backendKeepAlive =>
    rcases writing with ⟨stream, serves, isDest, isCodec, -, fromBackend⟩
    exact ⟨stream, serves.tornDown _ _, isDest, isCodec, .inl rfl, fromBackend⟩
  | upgraded =>
    rcases writing with ⟨stream, -, isDest, isCodec, -, bodiless⟩
    exact ⟨stream, .inr ⟨rfl, rfl⟩, isDest, isCodec, .inl rfl, bodiless⟩
  | tunnelOpened =>
    rcases writing with ⟨stream, -, isDest, isCodec, -, bodiless⟩
    exact ⟨stream, .inr ⟨rfl, rfl⟩, isDest, isCodec, .inl rfl, bodiless⟩
  | errorWritten =>
    rcases writing with ⟨-, isDest, isCodec, -, buffered⟩
    exact ⟨rfl, isDest, isCodec, .inl rfl, buffered⟩

theorem Awaits.tornDown {op : Op} (awaits : relay.Awaits op) (idleTimer : IdleTimer)
    (out : List Action) : (relay.tornDown idleTimer out).Awaits op := by
  cases op with
  | readHead peer buf =>
    cases peer with
    | client => exact ⟨.inl rfl, awaits.2.1, rfl⟩
    | backend stream => exact ⟨.inl rfl, awaits.2.1, awaits.2.2.tornDown _ _⟩
  | takeHeaders peer =>
    cases peer with
    | client => exact ⟨.inl rfl, awaits.2.1, rfl⟩
    | backend stream => exact ⟨.inl rfl, awaits.2.1, awaits.2.2.tornDown _ _⟩
  | connect target next => exact ⟨.inl rfl, rfl, awaits.2.2⟩
  | writeHead dest codec body next => exact Writing.tornDown awaits _ _
  | readBody dest codec body capacity next => exact Writing.tornDown awaits _ _
  | writeBody dest codec body next => exact Writing.tornDown awaits _ _
  | finish dest next => exact Writing.tornDown awaits _ _
  | drainRead => exact ⟨.inl rfl, rfl⟩
  | tunnelRead src dst => exact awaits
  | tunnelWrite src dst => exact awaits

theorem Control.teardown (control : relay.Control) : relay.teardown.Control := by
  refine teardown_cases relay (fun _ => ?_) fun _ => ?_
  · exact control
  · cases control with
    | waiting op alive pending awaits => exact .waiting op alive pending (awaits.tornDown _ _)
    | bridged stream up down alive phase backend pending carriesUp carriesDown =>
      exact .bridged stream up down alive (.inl rfl) (.inr ⟨rfl, rfl⟩) pending carriesUp
        carriesDown
    | finished done alive pending => exact .finished rfl alive pending
    | crashed dead => exact .crashed dead

/-- Two directions of a bridge, whichever was started last, when one of them completes. -/
theorem erase_of_carries {up down op : Op} {stream : TransportStream} {pending : List Op}
    (carriesUp : up.Carries .client (.backend stream))
    (carriesDown : down.Carries (.backend stream) .client)
    (both : pending = [up, down] ∨ pending = [down, up]) (opMem : op ∈ pending) :
    op = up ∧ pending.erase op = [down] ∨ op = down ∧ pending.erase op = [up] := by
  have distinct : up ≠ down := by
    rcases carriesUp with rfl | rfl <;> rcases carriesDown with rfl | rfl <;> simp
  rcases both with rfl | rfl <;> simp only [List.mem_cons, List.not_mem_nil, or_false] at opMem <;>
    rcases opMem with rfl | rfl <;> simp [distinct, distinct.symm]

end Facts

end RelaySession

end ReverseProxy
