import ReverseProxy.Proxy.QuicTable

/-!
# Connections to one address

lsquic refuses a second connection to an address, so requests to one upstream have to share
a connection (`proxy/upstream_pool.cpp`).  The pool looks for it in `quic_conns_`, where it is
missing while its handshake is under way, while a stream is requested on it, and when it is
about to be closed.  This module says exactly when that leads to a second connection.
-/

namespace ReverseProxy

open Machine Text

namespace QuicUpstreams

variable {u : QuicUpstreams} {i : ℕ} {session : UpstreamSession} {endpoint : BackendEndpoint}

/-- The connection to the address is open, or its handshake is still under way. -/
def Live (key : Bytes) (session : UpstreamSession) : Prop :=
  session.conn = true ∧ quicKey session.endpoint = key

instance (key : Bytes) (session : UpstreamSession) : Decidable (Live key session) :=
  inferInstanceAs (Decidable (_ ∧ _))

/-- No connection is started to an address that the pool already has a connection to. -/
def NoSecond (t : Machine.Transition QuicUpstreams Input Effect) : Prop :=
  ∀ endpoint, .connect endpoint ∈ t.actions →
    ∀ session ∈ t.source.sessions, ¬Live (quicKey endpoint) session

/-- The endpoint that a connection is started to. -/
def Effect.started : Effect → Option BackendEndpoint
  | .connect endpoint => some endpoint
  | .asyncOpenStream _ _ | .invoked _ _ => none

theorem noSecond_iff_started {t : Machine.Transition QuicUpstreams Input Effect} :
    NoSecond t ↔ ∀ effect ∈ t.actions, ∀ endpoint ∈ effect.started,
      ∀ session ∈ t.source.sessions, ¬Live (quicKey endpoint) session := by
  constructor
  · intro noSecond effect isEffect endpoint isStarted
    cases effect with
    | connect other =>
      cases isStarted
      exact noSecond endpoint isEffect
    | asyncOpenStream session outstanding => cases isStarted
    | invoked cb result => cases isStarted
  · intro each endpoint connect
    exact each _ connect endpoint rfl

instance : DecidablePred NoSecond :=
  fun _ => decidable_of_iff _ noSecond_iff_started.symm

/-- All connections to the address wait for a stream or are about to be closed. -/
def Engaged (u : QuicUpstreams) (key : Bytes) : Prop :=
  u.quicConns.queue key = [] ∧ ∃ session ∈ u.sessions, Live key session

/--
The pool is not asked for a stream while all connections to the address are engaged, not
asked for a fresh connection while there is one, and told that there will be no stream only of
a connection that was fresh, or while there is another one.
-/
def Clear (u : QuicUpstreams) : Input → Prop
  | .asyncConnect backendId _ _ =>
    ∀ endpoint, (u.pool.asyncConnect backendId).2 = .connecting endpoint →
      endpoint.protocol = .QUIC → ¬u.Engaged (quicKey endpoint)
  | .asyncConnectFresh endpoint _ _ =>
    endpoint.protocol = .QUIC → ∀ session ∈ u.sessions, ¬Live (quicKey endpoint) session
  | .newStream i none _ =>
    ∀ session request, u.sessions[i]? = some session → session.conn = true →
      session.newStreamCb = some request → request.fromPool = true →
        ¬u.Engaged (quicKey request.endpoint)
  | .newStream _ (some _) _ | .release _ _ | .connClosed _ => True

variable {other : BackendEndpoint}

theorem connect_not_mem_openQuicStream {fromPool : Bool} {cb : ℕ} :
    .connect other ∉ (u.openQuicStream i endpoint fromPool cb).2 := by
  unfold openQuicStream
  split <;> simp

theorem connect_not_mem_onClientConn : .connect other ∉ (u.onClientConn i).2 := by
  unfold onClientConn
  split
  · exact connect_not_mem_openQuicStream
  · simp

variable {connects : Bool}

theorem connect_mem_quicConnectFresh {cb : ℕ} :
    .connect other ∈ (u.quicConnectFresh endpoint connects cb).2 ↔
      u.quicEngine = true ∧ other = endpoint := by
  unfold quicConnectFresh
  split_ifs with noEngine connected
  · simp [noEngine]
  · have isEngine : u.quicEngine = true := by simpa using noEngine
    simp [isEngine, connect_not_mem_onClientConn]
  · have isEngine : u.quicEngine = true := by simpa using noEngine
    simp [isEngine]

theorem connect_mem_quicConnect {cb : ℕ} :
    .connect other ∈ (u.quicConnect endpoint connects cb).2 ↔
      u.quicConns.queue (quicKey endpoint) = [] ∧ u.quicEngine = true ∧ other = endpoint := by
  rw [← QueueTable.popFront_eq_none_iff]
  unfold quicConnect
  split
  · rename_i popped
    simp [popped, connect_not_mem_openQuicStream]
  · rename_i popped
    simp [popped, connect_mem_quicConnectFresh]

theorem connect_mem_asyncConnect {backendId : Bytes} {cb : ℕ} :
    .connect other ∈ (u.asyncConnect backendId connects cb).2 ↔
      (u.pool.asyncConnect backendId).2 = .connecting other ∧ other.protocol = .QUIC ∧
        u.quicConns.queue (quicKey other) = [] ∧ u.quicEngine = true := by
  unfold asyncConnect
  dsimp only
  split
  · rename_i answer
    simp [answer]
  · rename_i answer
    simp [answer]
  · rename_i endpoint answer
    rw [answer, UpstreamPool.Checkout.connecting.injEq]
    split_ifs with quic
    · rw [connect_mem_quicConnect]
      constructor
      · rintro ⟨none, isEngine, rfl⟩
        exact ⟨rfl, quic, none, isEngine⟩
      · rintro ⟨rfl, -, none, isEngine⟩
        exact ⟨none, isEngine, rfl⟩
    · constructor
      · intro connect
        cases connect
      · rintro ⟨rfl, isQuic, -⟩
        exact absurd isQuic quic

/-- The report that a pooled connection has no stream leads to a new connection to the address. -/
theorem connect_mem_onNewStream_none {request : StreamRequest}
    (isRequest : session.newStreamCb = some request) (away : u.Away i) :
    .connect other ∈ (u.onNewStream i session none connects).2 ↔
      request.fromPool = true ∧ u.quicConns.queue (quicKey request.endpoint) = [] ∧
        u.quicEngine = true ∧ other = request.endpoint := by
  have unchanged : (u.removeQuicConn request.endpoint i).quicConns.queue (quicKey request.endpoint) =
      u.quicConns.queue (quicKey request.endpoint) := by
    rw [removeQuicConn, QueueTable.queue_remove, Function.update_self]
    exact List.erase_of_not_mem (away _)
  rw [onNewStream, isRequest]
  dsimp only [onStream]
  split_ifs with fromPool
  · rw [connect_mem_quicConnect, unchanged]
    simp [fromPool, removeQuicConn]
  · simp [fromPool]

theorem connect_mem_asyncConnectFresh {cb : ℕ} :
    .connect other ∈ (u.asyncConnectFresh endpoint connects cb).2 ↔
      endpoint.protocol = .QUIC ∧ u.quicEngine = true ∧ other = endpoint := by
  unfold asyncConnectFresh
  split_ifs with quic
  · simp [quic, connect_mem_quicConnectFresh]
  · simp [quic]

theorem connect_not_mem_onNewStream_some {stream : TransportStream} :
    .connect other ∉ (u.onNewStream i session (some stream) connects).2 := by
  unfold onNewStream
  split <;> simp [onStream]

theorem Sound.hasEngine (sound : InOrder u) {key : Bytes} (isSession : session ∈ u.sessions)
    (_live : Live key session) : u.quicEngine = true :=
  sound.engine (List.ne_nil_of_mem isSession)

/-- A session that is told that it gets no stream is a live connection to the address itself. -/
theorem Sound.noSecond_newStream_none (sound : InOrder u) {result : Result}
    (taken : QuicUpstreams.step u (.newStream i none connects) = some result) :
    NoSecond ⟨u, .newStream i none connects, result.2, result.1⟩ ↔
      u.Clear (.newStream i none connects) := by
  rcases exists_of_newStream taken with
    ⟨session, isSession, ⟨isOpen, asked, rfl⟩ | ⟨isClosed, -, rfl⟩⟩
  · have isMember := List.mem_of_getElem? isSession
    have tracked := sound.tracked session isMember isOpen
    rcases tracked.pending asked.ne' with ⟨request, -, isRequest, sameKey⟩
    have isLive : Live (quicKey request.endpoint) session := ⟨isOpen, sameKey.symm⟩
    let told : QuicUpstreams :=
      { u with sessions := u.sessions.set i { session with requested := session.requested - 1 } }
    have starts : ∀ other, .connect other ∈ (told.onNewStream i session none connects).2 ↔
        request.fromPool = true ∧ u.quicConns.queue (quicKey request.endpoint) = [] ∧
          u.quicEngine = true ∧ other = request.endpoint := by
      intro other
      apply connect_mem_onNewStream_none isRequest
      exact sound.away_of_asked isSession asked.ne'
    simp only [NoSecond, Clear, Engaged]
    constructor
    · rintro noSecond session' request' isSession' - isRequest' fromPool ⟨none, -⟩
      rw [isSession, Option.some.injEq] at isSession'
      subst isSession'
      rw [isRequest, Option.some.injEq] at isRequest'
      subst isRequest'
      have second := (starts request.endpoint).mpr
        ⟨fromPool, none, sound.hasEngine isMember isLive, rfl⟩
      exact noSecond request.endpoint second session isMember isLive
    · intro clear endpoint connect other isOther otherLive
      rcases (starts endpoint).mp connect with ⟨fromPool, none, -, rfl⟩
      exact clear session request isSession isOpen isRequest fromPool
        ⟨none, other, isOther, otherLive⟩
  · simp only [NoSecond, Clear]
    constructor
    · intro _ session' request' isSession' isOpen
      rw [isSession, Option.some.injEq] at isSession'
      rw [← isSession', isClosed] at isOpen
      cases isOpen
    · intro _ endpoint connect
      cases connect

/-- What a step starts is a second connection exactly if the step is not clear. -/
theorem Sound.noSecond_iff (sound : InOrder u) {input : Input} {result : Result}
    (taken : QuicUpstreams.step u input = some result) :
    NoSecond ⟨u, input, result.2, result.1⟩ ↔ u.Clear input := by
  cases input with
  | asyncConnect backendId connects cb =>
    cases taken
    simp only [NoSecond, connect_mem_asyncConnect, Clear, Engaged]
    constructor
    · rintro noSecond endpoint answer quic ⟨none, session, isSession, isLive⟩
      exact noSecond endpoint ⟨answer, quic, none, sound.hasEngine isSession isLive⟩ session
        isSession isLive
    · rintro clear endpoint ⟨answer, quic, none, -⟩ session isSession isLive
      exact clear endpoint answer quic ⟨none, session, isSession, isLive⟩
  | asyncConnectFresh endpoint connects cb =>
    cases taken
    simp only [NoSecond, connect_mem_asyncConnectFresh, Clear]
    constructor
    · intro noSecond quic session isSession isLive
      exact noSecond endpoint ⟨quic, sound.hasEngine isSession isLive, rfl⟩ session isSession isLive
    · rintro clear other ⟨quic, -, rfl⟩
      exact clear quic
  | release endpoint stream =>
    cases taken
    simp [NoSecond, Clear]
  | newStream i stream connects =>
    cases stream with
    | none => exact sound.noSecond_newStream_none taken
    | some stream =>
      rcases exists_of_newStream taken with
        ⟨session, -, ⟨-, -, rfl⟩ | ⟨-, impossible, -⟩⟩
      · simp [NoSecond, Clear, connect_not_mem_onNewStream_some]
      · cases impossible
  | connClosed i =>
    rcases exists_of_connClosed taken with ⟨session, -, -, rfl⟩
    simp [NoSecond, Clear]

/--
The pool starts no second connection to an address exactly if it is never asked for a stream
while all its connections to the address are engaged.
-/
theorem one_connection_iff {backends : List BackendEndpoint}
    {log : List (Machine.Transition QuicUpstreams Input Effect)} {u : QuicUpstreams}
    (runs : Runs (logged step) anyInput (start backends) log u) :
    (∀ t ∈ log, NoSecond t) ↔ ∀ t ∈ log, t.source.Clear t.input := by
  have each : (∀ t ∈ log, NoSecond t ↔ t.source.Clear t.input) ∧ InOrder u := by
    apply Runs.forall_mem ?_ ?_ runs
    · exact sound_start backends
    · intro u input next log sound _ taken
      rcases logged_eq_some_iff.mp taken with ⟨effects, stepped, rfl⟩
      refine ⟨?_, (sound.step (fun _ _ _ _ => trivial) stepped).sound⟩
      intro t isTransition
      rw [List.mem_singleton.mp isTransition]
      exact sound.noSecond_iff stepped
  exact forall₂_congr each.1

/-- Two requests for a backend, the second after the stream of the first. -/
def oneAfterAnother : List Input :=
  [.asyncConnect (ascii "q") true 0, .newStream 0 (some { id := 0, protocol := .QUIC }) true,
    .asyncConnect (ascii "q") true 1]

theorem one_connection_oneAfterAnother :
    ∃ log u, Runs (logged step) anyInput
        (start twoBackends) log u ∧ log.length = 3 ∧
      ∀ t ∈ log, t.source.Clear t.input := by
  have reached : (run (logged step) (fun _ _ => true)
      (start twoBackends) oneAfterAnother).any (fun last =>
        decide (last.2.length = 3 ∧ ∀ t ∈ last.2, NoSecond t)) = true := by
    decide +kernel
  rcases exists_runs_any reached with ⟨log, u, runs, three, noSecond⟩
  exact ⟨log, u, runs, three, (one_connection_iff runs).mp noSecond⟩

/-- Two requests for a backend before the handshake of the first connection is done. -/
def concurrentFirst : List Input :=
  [.asyncConnect (ascii "q") true 0, .asyncConnect (ascii "q") true 1]

theorem concurrentFirst_second_connection :
    ∃ log u, Runs (logged step) anyInput
        (start twoBackends) log u ∧ ¬∀ t ∈ log, NoSecond t := by
  have reached : (run (logged step) (fun _ _ => true)
      (start twoBackends) concurrentFirst).any (fun last =>
        decide (¬∀ t ∈ last.2, NoSecond t)) = true := by
    decide +kernel
  exact exists_runs_any reached

end QuicUpstreams

end ReverseProxy
