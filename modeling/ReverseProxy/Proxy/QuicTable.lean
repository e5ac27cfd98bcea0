import ReverseProxy.Machine.QueueTable
import ReverseProxy.Proxy.UpstreamPool

/-!
# The table of QUIC connections

The QUIC half of `UpstreamPool` (`proxy/upstream_pool.cpp`) over the map `quic_conns_`, whose
entries are erased with the last connection of an address.  A connection may be closed at
any time here, also while a stream is requested; a missing stream that is reported after that
no longer finds the session.  `lsquic_conn_make_stream` and `QuicClientEngine::connect` may
call back before they return, and nothing is done after the calls that depends on it, so what
they report is reported next.
-/

namespace ReverseProxy

open Machine Text

/-- What the callback captures that `open_quic_stream` hands to a session. -/
structure StreamRequest where
  endpoint : BackendEndpoint
  fromPool : Bool
  cb : ℕ
  deriving DecidableEq

/-- `QuicTransportSession` in the client role, with the endpoint that it was connected to. -/
structure UpstreamSession where
  endpoint : BackendEndpoint
  /-- Whether `conn_` points to the lsquic connection. -/
  conn : Bool := true
  /-- The callback stays set when it has been invoked. -/
  newStreamCb : Option StreamRequest := none
  /-- The endpoint under which `closed_cb_` looks for the session. -/
  closedCb : Option BackendEndpoint := none
  /-- The streams that lsquic has been asked for and has not reported yet. -/
  requested : ℕ := 0
  deriving DecidableEq

/-- `async_open_stream`: without a connection nobody is asked for a stream. -/
def UpstreamSession.asyncOpenStream (session : UpstreamSession) (request : StreamRequest) :
    UpstreamSession :=
  { session with
    newStreamCb := some request
    requested := if session.conn then session.requested + 1 else session.requested }

/-- The key of `quic_conns_`. -/
def quicKey (endpoint : BackendEndpoint) : Bytes :=
  endpoint.host ++ COLON :: decimal endpoint.port

/-- The QUIC half of `UpstreamPool`. -/
structure QuicUpstreams where
  pool : UpstreamPool := {}
  /-- Whether there is a QUIC client engine. -/
  quicEngine : Bool := false
  pendingQuic : Option (BackendEndpoint × ℕ) := none
  quicConns : QueueTable Bytes ℕ := .empty
  /-- All sessions that there have been. -/
  sessions : List UpstreamSession := []

namespace QuicUpstreams

/-- What is asked of the pool, and what lsquic reports to it. -/
inductive Input where
  /-- `connects` is whether `QuicClientEngine::connect` starts a connection if it is called. -/
  | asyncConnect (backendId : Bytes) (connects : Bool) (cb : ℕ)
  | asyncConnectFresh (endpoint : BackendEndpoint) (connects : Bool) (cb : ℕ)
  | release (endpoint : BackendEndpoint) (stream : TransportStream)
  /-- lsquic reports a stream that was asked for, or that there will be none. -/
  | newStream (session : ℕ) (stream : Option TransportStream) (connects : Bool)
  | connClosed (session : ℕ)
  deriving DecidableEq

/-- What the pool does, in order. -/
inductive Effect where
  /-- `QuicClientEngine::connect` is called. -/
  | connect (endpoint : BackendEndpoint)
  /-- The callback of a session is replaced, with so many streams asked for and not reported. -/
  | asyncOpenStream (session outstanding : ℕ)
  /-- A `ConnectCallback` is invoked. -/
  | invoked (cb : ℕ) (result : Except ErrorCode (TransportStream × BackendEndpoint × Bool))
  deriving DecidableEq

/-- The pool after a call, and what the call did. -/
abbrev Result := QuicUpstreams × List Effect

/-- The session takes over the callback and asks for a stream. -/
def openQuicStream (u : QuicUpstreams) (session : ℕ) (endpoint : BackendEndpoint) (fromPool : Bool)
    (cb : ℕ) : Result :=
  match u.sessions[session]? with
  | some opened =>
    ({ u with
        sessions := u.sessions.set session
          (opened.asyncOpenStream { endpoint, fromPool, cb }) },
      [.asyncOpenStream session opened.requested])
  | none => (u, [])

/-- The session of a connection that the engine has started. -/
def onClientConn (u : QuicUpstreams) (session : ℕ) : Result :=
  match u.pendingQuic, u.sessions[session]? with
  | some (endpoint, cb), some opened =>
    openQuicStream
      { u with
        pendingQuic := none
        sessions := u.sessions.set session { opened with closedCb := some endpoint } }
      session endpoint false cb
  | _, _ => (u, [])

/-- `QuicClientEngine::connect` hands over the new session before it returns. -/
def quicConnectFresh (u : QuicUpstreams) (endpoint : BackendEndpoint) (connects : Bool) (cb : ℕ) :
    Result :=
  if u.quicEngine = false then (u, [.invoked cb (.error .notFound)])
  else
    let u := { u with pendingQuic := some (endpoint, cb) }
    if connects then
      let result :=
        onClientConn { u with sessions := u.sessions ++ [{ endpoint := endpoint }] } u.sessions.length
      (result.1, .connect endpoint :: result.2)
    else
      ({ u with pendingQuic := none },
        [.connect endpoint, .invoked cb (.error .hostUnreachable)])

/-- The oldest session of the address is asked, or one that is connected now. -/
def quicConnect (u : QuicUpstreams) (endpoint : BackendEndpoint) (connects : Bool) (cb : ℕ) :
    Result :=
  match u.quicConns.popFront (quicKey endpoint) with
  | some (session, quicConns) => openQuicStream { u with quicConns } session endpoint true cb
  | none => u.quicConnectFresh endpoint connects cb

/-- Where it is a TCP connect that is started, its callback is another matter. -/
def asyncConnect (u : QuicUpstreams) (backendId : Bytes) (connects : Bool) (cb : ℕ) : Result :=
  let answer := u.pool.asyncConnect backendId
  let u := { u with pool := answer.1 }
  match answer.2 with
  | .notFound => (u, [.invoked cb (.error .notFound)])
  | .reused stream endpoint => (u, [.invoked cb (.ok (stream, endpoint, true))])
  | .connecting endpoint =>
    if endpoint.protocol = .QUIC then u.quicConnect endpoint connects cb else (u, [])

/-- The pool is not asked; as above, only for an endpoint that is reached over QUIC. -/
def asyncConnectFresh (u : QuicUpstreams) (endpoint : BackendEndpoint) (connects : Bool) (cb : ℕ) :
    Result :=
  if endpoint.protocol = .QUIC then u.quicConnectFresh endpoint connects cb else (u, [])

/-- The session is taken out of the table. -/
def removeQuicConn (u : QuicUpstreams) (endpoint : BackendEndpoint) (session : ℕ) :
    QuicUpstreams :=
  { u with quicConns := u.quicConns.remove (quicKey endpoint) session }

/-- The callback that `open_quic_stream` hands to the session. -/
def onStream (u : QuicUpstreams) (session : ℕ) (request : StreamRequest)
    (stream : Option TransportStream) (connects : Bool) : Result :=
  match stream with
  | some stream =>
    ({ u with quicConns := u.quicConns.pushBack (quicKey request.endpoint) session },
      [.invoked request.cb (.ok (stream, request.endpoint, request.fromPool))])
  | none =>
    let u := u.removeQuicConn request.endpoint session
    if request.fromPool then u.quicConnect request.endpoint connects request.cb
    else (u, [.invoked request.cb (.error .eof)])

/-- `on_new_stream` calls back with a missing stream too. -/
def onNewStream (u : QuicUpstreams) (session : ℕ) (opened : UpstreamSession)
    (stream : Option TransportStream) (connects : Bool) : Result :=
  match opened.newStreamCb with
  | some request => u.onStream session request stream connects
  | none => (u, [])

/-- `on_closed` forgets the connection, and the pool the session. -/
def onClosed (u : QuicUpstreams) (session : ℕ) (opened : UpstreamSession) : QuicUpstreams :=
  let u := { u with
    sessions := u.sessions.set session { opened with conn := false, closedCb := none } }
  match opened.closedCb with
  | some endpoint => u.removeQuicConn endpoint session
  | none => u

/-- lsquic reports each stream that it has been asked for once, and none after the connection. -/
def step : Step QuicUpstreams Input Effect
  | u, .asyncConnect backendId connects cb => some (u.asyncConnect backendId connects cb)
  | u, .asyncConnectFresh endpoint connects cb => some (u.asyncConnectFresh endpoint connects cb)
  | u, .release endpoint stream => some ({ u with pool := u.pool.release endpoint stream }, [])
  | u, .newStream session stream connects =>
    u.sessions[session]?.bind fun opened =>
      if opened.conn then
        if 0 < opened.requested then
          some (onNewStream
            { u with
              sessions := u.sessions.set session
                { opened with requested := opened.requested - 1 } }
            session opened stream connects)
        else none
      -- the context of a closed connection is gone
      else if stream.isNone then some (u, []) else none
  | u, .connClosed session =>
    u.sessions[session]?.bind fun opened =>
      if opened.conn then some (u.onClosed session opened, []) else none

/-- The pool after `add_backend` for each of the backends. -/
def start (backends : List BackendEndpoint) : QuicUpstreams :=
  { pool := { endpoints := backends.map fun be => { be } }
    quicEngine := backends.any fun be => be.protocol = .QUIC }

/-! ## What the table holds -/

/-- The callback of the stream that the session waits for. -/
def waitingFor (session : UpstreamSession) : List ℕ :=
  if session.requested = 0 then [] else (session.newStreamCb.map StreamRequest.cb).toList

/-- The callbacks of the stream requests that are under way. -/
def waiting (u : QuicUpstreams) : List ℕ := u.sessions.flatMap waitingFor

/-- The callbacks that have been invoked, in order. -/
def invokedIn (effects : List Effect) : List ℕ :=
  effects.filterMap fun
    | .invoked cb _ => some cb
    | .connect _ | .asyncOpenStream _ _ => none

/-- The callback that comes with a call, unless it is one for a TCP connect. -/
def handed (u : QuicUpstreams) : Input → List ℕ
  | .asyncConnect backendId _ cb =>
    match (u.pool.asyncConnect backendId).2 with
    | .connecting endpoint => if endpoint.protocol = .QUIC then [cb] else []
    | .notFound | .reused _ _ => [cb]
  | .asyncConnectFresh endpoint _ cb => if endpoint.protocol = .QUIC then [cb] else []
  | .release _ _ | .newStream _ _ _ | .connClosed _ => []

/-- The session is open, waits for no stream and goes to the address of the key. -/
def Ready (u : QuicUpstreams) (i : ℕ) (key : Bytes) : Prop :=
  ∃ session, u.sessions[i]? = some session ∧ session.conn = true ∧ session.requested = 0 ∧
    quicKey session.endpoint = key

/-- The session waits for one stream, and its callback files it where it belongs. -/
structure Pending (session : UpstreamSession) (request : StreamRequest) : Prop where
  one : session.requested = 1
  isRequest : session.newStreamCb = some request
  sameKey : quicKey request.endpoint = quicKey session.endpoint

/-- What the pool needs to know of an open session. -/
structure Tracked (session : UpstreamSession) : Prop where
  closedCb : session.closedCb = some session.endpoint
  pending : session.requested ≠ 0 → ∃ request, Pending session request

/-- The table is in order, and so is every session; `AtClose` holds of those that are closed. -/
structure Sound (AtClose : UpstreamSession → Prop) (u : QuicUpstreams) : Prop where
  noPending : u.pendingQuic = none
  filed : u.quicConns.Filed u.Ready
  tracked : ∀ session ∈ u.sessions, session.conn = true → Tracked session
  closed : ∀ session ∈ u.sessions, session.conn = false → AtClose session
  engine : u.sessions ≠ [] → u.quicEngine = true

/-- The session is not in the table. -/
def Away (u : QuicUpstreams) (i : ℕ) : Prop := ∀ key, i ∉ u.quicConns.queue key

variable {AtClose : UpstreamSession → Prop} {u : QuicUpstreams} {i : ℕ}
  {session : UpstreamSession} {endpoint : BackendEndpoint}

theorem Ready.of_session {key : Bytes} (ready : u.Ready i key)
    (isSession : u.sessions[i]? = some session) :
    session.conn = true ∧ session.requested = 0 ∧ quicKey session.endpoint = key := by
  rcases ready with ⟨other, isOther, facts⟩
  rw [isSession, Option.some.injEq] at isOther
  rw [isOther]
  exact facts

theorem Sound.away_of_asked (sound : Sound AtClose u) (isSession : u.sessions[i]? = some session)
    (asked : session.requested ≠ 0) : u.Away i := by
  intro key filed
  exact asked ((sound.filed.belongs key i filed).of_session isSession).2.1

/-- A session that is not filed under its own key is not filed at all. -/
theorem away_of_ownKey {table : QueueTable Bytes ℕ} (filed : table.Filed u.Ready)
    (isSession : u.sessions[i]? = some session)
    (gone : i ∉ table.queue (quicKey session.endpoint)) : ∀ key, i ∉ table.queue key := by
  intro key isFiled
  have isKey := ((filed.belongs key i isFiled).of_session isSession).2.2
  rw [isKey] at gone
  exact gone isFiled

theorem Sound.set (sound : Sound AtClose u) (away : u.Away i) {session' : UpstreamSession}
    (tracked : session'.conn = true → Tracked session')
    (closed : session'.conn = false → AtClose session') :
    Sound AtClose { u with sessions := u.sessions.set i session' } := by
  refine ⟨sound.noPending, ?_, ?_, ?_, ?_⟩
  · apply sound.filed.mono
    rintro key j isFiled ⟨session, isSession, ready⟩
    have other : i ≠ j := by
      rintro rfl
      exact away key isFiled
    refine ⟨session, ?_, ready⟩
    rw [List.getElem?_set_ne other]
    exact isSession
  · intro session isSession
    rcases List.mem_or_eq_of_mem_set isSession with old | rfl
    · exact sound.tracked session old
    · exact tracked
  · intro session isSession
    rcases List.mem_or_eq_of_mem_set isSession with old | rfl
    · exact sound.closed session old
    · exact closed
  · intro some
    apply sound.engine
    intro none
    simp [none] at some

/-- An open session is set to an open one. -/
theorem Sound.setOpen (sound : Sound AtClose u) (away : u.Away i) {session' : UpstreamSession}
    (isOpen : session'.conn = true) (tracked : Tracked session') :
    Sound AtClose { u with sessions := u.sessions.set i session' } := by
  apply sound.set away
  · intro _
    exact tracked
  · intro isClosed
    rw [isOpen] at isClosed
    cases isClosed

theorem Sound.append (sound : Sound AtClose u) (isEngine : u.quicEngine = true)
    (isOpen : session.conn = true) (tracked : Tracked session) :
    Sound AtClose { u with sessions := u.sessions ++ [session] } := by
  refine ⟨sound.noPending, ?_, ?_, ?_, fun _ => isEngine⟩
  · apply sound.filed.mono
    rintro key j isFiled ⟨other, isOther, ready⟩
    refine ⟨other, ?_, ready⟩
    rw [List.getElem?_append_left (List.getElem?_eq_some_iff.mp isOther).1]
    exact isOther
  · intro other isOther
    rcases List.mem_append.mp isOther with old | new
    · exact sound.tracked other old
    · rw [List.mem_singleton.mp new]
      intro _
      exact tracked
  · intro other isOther isClosed
    rcases List.mem_append.mp isOther with old | new
    · exact sound.closed other old isClosed
    · rw [List.mem_singleton.mp new, isOpen] at isClosed
      cases isClosed

theorem Sound.away_length (sound : Sound AtClose u) : u.Away u.sessions.length := by
  intro key filed
  rcases sound.filed.belongs key _ filed with ⟨session, isSession, -⟩
  rw [List.getElem?_eq_none le_rfl] at isSession
  cases isSession

theorem Sound.setPool (sound : Sound AtClose u) (pool : UpstreamPool) :
    Sound AtClose { u with pool } :=
  ⟨sound.noPending, sound.filed, sound.tracked, sound.closed, sound.engine⟩

/-- What the other callbacks wait for is not touched. -/
theorem count_waiting_set (isSession : u.sessions[i]? = some session)
    (session' : UpstreamSession) (cb : ℕ) :
    (waiting { u with sessions := u.sessions.set i session' }).count cb +
        (waitingFor session).count cb = u.waiting.count cb + (waitingFor session').count cb :=
  count_flatMap_set isSession session' waitingFor cb

theorem waitingFor_of_unasked (unasked : session.requested = 0) : waitingFor session = [] :=
  if_pos unasked

theorem Pending.waitingFor {request : StreamRequest} (pending : Pending session request) :
    waitingFor session = [request.cb] := by
  rw [QuicUpstreams.waitingFor, pending.one, pending.isRequest]
  rfl

/-! ## One step keeps the table -/

/-- No callback is replaced that a stream is still to be reported to. -/
def Undisturbed (effects : List Effect) : Prop :=
  ∀ session outstanding, .asyncOpenStream session outstanding ∈ effects → outstanding = 0

/-- What a call leaves: of the callbacks that are owed, some are invoked and the rest wait. -/
structure Keeps (AtClose : UpstreamSession → Prop) (result : Result) (owed : List ℕ) : Prop where
  sound : Sound AtClose result.1
  undisturbed : Undisturbed result.2
  account : Balanced result.1.waiting (invokedIn result.2) owed

theorem undisturbed_nil : Undisturbed [] := by
  intro session outstanding opened
  cases opened

theorem Keeps.of_count {result : Result} {owed owed' : List ℕ} (keeps : Keeps AtClose result owed)
    (same : ∀ cb, owed.count cb = owed'.count cb) : Keeps AtClose result owed' := by
  refine ⟨keeps.sound, keeps.undisturbed, ?_⟩
  intro cb
  exact (keeps.account cb).trans (same cb)

theorem Sound.silent (sound : Sound AtClose u) {owed : List ℕ}
    (same : ∀ cb, u.waiting.count cb = owed.count cb) : Keeps AtClose (u, []) owed :=
  ⟨sound, undisturbed_nil, same⟩

theorem Sound.invoke (sound : Sound AtClose u) (cb : ℕ)
    (result : Except ErrorCode (TransportStream × BackendEndpoint × Bool)) :
    Keeps AtClose (u, [.invoked cb result]) (cb :: u.waiting) := by
  refine ⟨sound, ?_, ?_⟩
  · intro session outstanding opened
    simp at opened
  · intro other
    have invoked : invokedIn [.invoked cb result] = [cb] := rfl
    simp only [invoked, List.count_cons, List.count_nil]
    omega

theorem Keeps.connect {result : Result} {owed : List ℕ} (keeps : Keeps AtClose result owed)
    (endpoint : BackendEndpoint) :
    Keeps AtClose (result.1, .connect endpoint :: result.2) owed := by
  refine ⟨keeps.sound, ?_, keeps.account⟩
  intro session outstanding opened
  rcases List.mem_cons.mp opened with connect | opened
  · cases connect
  · exact keeps.undisturbed session outstanding opened

theorem Sound.openQuicStream (sound : Sound AtClose u) (away : u.Away i)
    (isSession : u.sessions[i]? = some session) (isOpen : session.conn = true)
    (unasked : session.requested = 0) (isClosedCb : session.closedCb = some session.endpoint)
    (sameKey : quicKey endpoint = quicKey session.endpoint) (fromPool : Bool) (cb : ℕ) :
    Keeps AtClose (u.openQuicStream i endpoint fromPool cb) (cb :: u.waiting) := by
  rw [QuicUpstreams.openQuicStream, isSession]
  dsimp only
  have pending : Pending (session.asyncOpenStream { endpoint, fromPool, cb })
      { endpoint, fromPool, cb } := by
    refine ⟨?_, rfl, sameKey⟩
    simp [UpstreamSession.asyncOpenStream, isOpen, unasked]
  have staysOpen : (session.asyncOpenStream { endpoint, fromPool, cb }).conn = true := isOpen
  have tracked : Tracked (session.asyncOpenStream { endpoint, fromPool, cb }) :=
    ⟨isClosedCb, fun _ => ⟨_, pending⟩⟩
  have waits : waitingFor (session.asyncOpenStream { endpoint, fromPool, cb }) = [cb] :=
    pending.waitingFor
  refine ⟨sound.setOpen away staysOpen tracked, ?_, ?_⟩
  · intro other outstanding opened
    simp only [List.mem_singleton, Effect.asyncOpenStream.injEq] at opened
    rw [opened.2, unasked]
  · intro other
    have moved := count_waiting_set isSession
      (session.asyncOpenStream { endpoint, fromPool, cb }) other
    have invoked : invokedIn [.asyncOpenStream i session.requested] = [] := rfl
    rw [waits, waitingFor_of_unasked unasked, List.count_nil, List.count_cons, List.count_nil]
      at moved
    simp only [invoked, List.count_cons, List.count_nil]
    omega

theorem quicConnectFresh_connected (noPending : u.pendingQuic = none)
    (isEngine : u.quicEngine ≠ false) (cb : ℕ) :
    u.quicConnectFresh endpoint true cb =
      let result := openQuicStream
        { u with sessions := u.sessions ++ [{ closedCb := some endpoint, endpoint := endpoint }] }
        u.sessions.length endpoint false cb
      (result.1, .connect endpoint :: result.2) := by
  have isNew : (u.sessions ++ [({ endpoint := endpoint } : UpstreamSession)])[u.sessions.length]? =
      some { endpoint := endpoint } := by
    simp
  have isSet : (u.sessions ++ [({ endpoint := endpoint } : UpstreamSession)]).set u.sessions.length
      { closedCb := some endpoint, endpoint := endpoint } =
        u.sessions ++ [{ closedCb := some endpoint, endpoint := endpoint }] := by
    simp
  rw [quicConnectFresh, if_neg isEngine, if_pos rfl, onClientConn]
  dsimp only
  rw [isNew]
  dsimp only
  rw [isSet, noPending]

theorem Sound.quicConnectFresh (sound : Sound AtClose u) (connects : Bool) (cb : ℕ) :
    Keeps AtClose (u.quicConnectFresh endpoint connects cb) (cb :: u.waiting) := by
  by_cases isEngine : u.quicEngine = false
  · rw [QuicUpstreams.quicConnectFresh, if_pos isEngine]
    exact sound.invoke cb _
  · cases connects with
    | true =>
      rw [quicConnectFresh_connected sound.noPending isEngine]
      let fresh : UpstreamSession := { closedCb := some endpoint, endpoint := endpoint }
      let u' : QuicUpstreams := { u with sessions := u.sessions ++ [fresh] }
      have appended : Sound AtClose u' := by
        apply sound.append (by simpa using isEngine) rfl
        exact ⟨rfl, fun asked => absurd rfl asked⟩
      have isNew : (u.sessions ++ [fresh])[u.sessions.length]? = some fresh := by
        simp
      have same : u'.waiting = u.waiting := by
        simp [u', fresh, waiting, waitingFor]
      rw [← same]
      apply Keeps.connect
      exact appended.openQuicStream sound.away_length isNew rfl rfl rfl rfl false cb
    | false =>
      rw [QuicUpstreams.quicConnectFresh, if_neg isEngine]
      have unchanged : Sound AtClose { u with pendingQuic := none } :=
        ⟨rfl, sound.filed, sound.tracked, sound.closed, sound.engine⟩
      exact (unchanged.invoke cb _).connect endpoint

theorem Sound.quicConnect (sound : Sound AtClose u) (connects : Bool) (cb : ℕ) :
    Keeps AtClose (u.quicConnect endpoint connects cb) (cb :: u.waiting) := by
  unfold QuicUpstreams.quicConnect
  split
  · rename_i i quicConns popped
    rcases sound.filed.popFront popped with
      ⟨filed, ⟨session, isSession, isOpen, unasked, isKey⟩, gone⟩
    have popped : Sound AtClose { u with quicConns } :=
      ⟨sound.noPending, filed, sound.tracked, sound.closed, sound.engine⟩
    have away : Away { u with quicConns } i := by
      apply away_of_ownKey filed isSession
      rw [isKey]
      exact gone
    have tracked := sound.tracked session (List.mem_of_getElem? isSession) isOpen
    exact popped.openQuicStream away isSession isOpen unasked tracked.closedCb isKey.symm true cb
  · exact sound.quicConnectFresh connects cb

theorem Sound.removeQuicConn (sound : Sound AtClose u) (endpoint : BackendEndpoint) (i : ℕ) :
    Sound AtClose (u.removeQuicConn endpoint i) :=
  ⟨sound.noPending, sound.filed.remove _ i, sound.tracked, sound.closed, sound.engine⟩

theorem Sound.onStream (sound : Sound AtClose u) (away : u.Away i) {request : StreamRequest}
    (ready : u.Ready i (quicKey request.endpoint)) (stream : Option TransportStream)
    (connects : Bool) :
    Keeps AtClose (u.onStream i request stream connects) (request.cb :: u.waiting) := by
  unfold QuicUpstreams.onStream
  cases stream with
  | some stream =>
    have pushed : Sound AtClose
        { u with quicConns := u.quicConns.pushBack (quicKey request.endpoint) i } :=
      ⟨sound.noPending, sound.filed.pushBack (away _) ready, sound.tracked, sound.closed,
        sound.engine⟩
    exact pushed.invoke request.cb _
  | none =>
    dsimp only
    have removed := sound.removeQuicConn request.endpoint i
    split
    · exact removed.quicConnect connects request.cb
    · exact removed.invoke request.cb _

theorem Sound.newStream (sound : Sound AtClose u) (isSession : u.sessions[i]? = some session)
    (isOpen : session.conn = true) (asked : session.requested ≠ 0)
    (stream : Option TransportStream) (connects : Bool) :
    Keeps AtClose (onNewStream
      { u with sessions := u.sessions.set i { session with requested := session.requested - 1 } }
      i session stream connects) u.waiting := by
  have tracked := sound.tracked session (List.mem_of_getElem? isSession) isOpen
  rcases tracked.pending asked with ⟨request, pending⟩
  let session' : UpstreamSession := { session with requested := session.requested - 1 }
  have staysOpen : session'.conn = true := isOpen
  have unasked : session'.requested = 0 := by simp [session', pending.one]
  have away : u.Away i := sound.away_of_asked isSession asked
  have sound' : Sound AtClose { u with sessions := u.sessions.set i session' } := by
    apply sound.setOpen away staysOpen
    exact ⟨tracked.closedCb, fun asked => absurd unasked asked⟩
  have isSession' : (u.sessions.set i session')[i]? = some session' :=
    List.getElem?_set_self (List.getElem?_eq_some_iff.mp isSession).1
  have handled : ∀ v : QuicUpstreams,
      v.onNewStream i session stream connects = v.onStream i request stream connects := by
    intro v
    rw [onNewStream, pending.isRequest]
  rw [handled]
  refine (sound'.onStream away ⟨session', isSession', isOpen, unasked, pending.sameKey.symm⟩
    stream connects).of_count ?_
  intro cb
  have moved := count_waiting_set isSession session' cb
  rw [pending.waitingFor, waitingFor_of_unasked unasked, List.count_cons, List.count_nil] at moved
  rw [List.count_cons]
  omega

/-- A session is taken out of the table as it is closed. -/
theorem Sound.onClosed (sound : Sound AtClose u) (isSession : u.sessions[i]? = some session)
    (isOpen : session.conn = true)
    (atClose : AtClose { session with conn := false, closedCb := none }) :
    Keeps AtClose (u.onClosed i session, []) u.waiting := by
  have tracked := sound.tracked session (List.mem_of_getElem? isSession) isOpen
  have removed := sound.removeQuicConn session.endpoint i
  have away : (u.removeQuicConn session.endpoint i).Away i :=
    away_of_ownKey removed.filed isSession sound.filed.not_mem_remove
  unfold QuicUpstreams.onClosed
  rw [tracked.closedCb]
  apply Sound.silent
  · apply removed.set away
    · intro impossible
      cases impossible
    · intro _
      exact atClose
  · intro cb
    have moved := count_waiting_set isSession { session with conn := false, closedCb := none } cb
    have same : waitingFor { session with conn := false, closedCb := none } = waitingFor session :=
      rfl
    rw [same] at moved
    exact Nat.add_right_cancel moved

theorem Sound.asyncConnect (sound : Sound AtClose u) (backendId : Bytes) (connects : Bool) (cb : ℕ) :
    Keeps AtClose (u.asyncConnect backendId connects cb)
      (u.handed (.asyncConnect backendId connects cb) ++ u.waiting) := by
  have answered := sound.setPool (u.pool.asyncConnect backendId).1
  rw [QuicUpstreams.asyncConnect, handed]
  cases (u.pool.asyncConnect backendId).2 with
  | notFound => exact answered.invoke cb _
  | reused stream endpoint => exact answered.invoke cb _
  | connecting endpoint =>
    dsimp only
    split
    · exact answered.quicConnect connects cb
    · exact answered.silent fun _ => rfl

theorem Sound.asyncConnectFresh (sound : Sound AtClose u) (connects : Bool) (cb : ℕ) :
    Keeps AtClose (u.asyncConnectFresh endpoint connects cb)
      (u.handed (.asyncConnectFresh endpoint connects cb) ++ u.waiting) := by
  rw [QuicUpstreams.asyncConnectFresh, handed]
  split
  · exact sound.quicConnectFresh connects cb
  · exact sound.silent fun _ => rfl

/-- What a report or a close finds when it is possible. -/
theorem exists_of_newStream {stream : Option TransportStream} {connects : Bool} {result : Result}
    (taken : step u (.newStream i stream connects) = some result) :
    ∃ session, u.sessions[i]? = some session ∧
      (session.conn = true ∧ 0 < session.requested ∧
          result = onNewStream
            { u with
              sessions := u.sessions.set i { session with requested := session.requested - 1 } }
            i session stream connects ∨
        session.conn = false ∧ stream = none ∧ result = (u, [])) := by
  rcases Option.bind_eq_some_iff.mp taken with ⟨session, isSession, taken⟩
  refine ⟨session, isSession, ?_⟩
  split_ifs at taken with isOpen asked late
  · left
    cases taken
    exact ⟨isOpen, asked, rfl⟩
  · right
    cases taken
    exact ⟨by simpa using isOpen, Option.isNone_iff_eq_none.mp late, rfl⟩

theorem exists_of_connClosed {result : Result} (taken : step u (.connClosed i) = some result) :
    ∃ session, u.sessions[i]? = some session ∧ session.conn = true ∧
      result = (u.onClosed i session, []) := by
  rcases Option.bind_eq_some_iff.mp taken with ⟨session, isSession, taken⟩
  refine ⟨session, isSession, ?_⟩
  split_ifs at taken with isOpen
  cases taken
  exact ⟨isOpen, rfl⟩

/-- One step keeps the table, if what is to hold of closed sessions holds of one that closes. -/
theorem Sound.step (sound : Sound AtClose u) {input : Input} {result : Result}
    (atClose : ∀ i session, input = .connClosed i → u.sessions[i]? = some session →
      AtClose { session with conn := false, closedCb := none })
    (taken : step u input = some result) :
    Keeps AtClose result (u.handed input ++ u.waiting) := by
  cases input with
  | asyncConnect backendId connects cb =>
    cases taken
    exact sound.asyncConnect backendId connects cb
  | asyncConnectFresh endpoint connects cb =>
    cases taken
    exact sound.asyncConnectFresh connects cb
  | release endpoint stream =>
    cases taken
    exact (sound.setPool _).silent fun _ => rfl
  | newStream i stream connects =>
    rcases exists_of_newStream taken with
      ⟨session, isSession, ⟨isOpen, asked, rfl⟩ | ⟨-, -, rfl⟩⟩
    · exact sound.newStream isSession isOpen asked.ne' stream connects
    · exact sound.silent fun _ => rfl
  | connClosed i =>
    rcases exists_of_connClosed taken with ⟨session, isSession, isOpen, rfl⟩
    exact sound.onClosed isSession isOpen (atClose i session rfl isSession)

theorem sound_start (backends : List BackendEndpoint) : Sound AtClose (start backends) := by
  refine ⟨rfl, QueueTable.filed_empty, ?_, ?_, ?_⟩
  · intro session isSession
    cases isSession
  · intro session isSession
    cases isSession
  · intro some
    exact absurd rfl some

/-- What `quic_conns_` promises to the code that takes a session out of it. -/
structure TableInvariant (u : QuicUpstreams) : Prop where
  /-- A session occurs once, under one key. -/
  once : ∀ i, ∀ key, i ∈ u.quicConns.queue key →
    (u.quicConns.queue key).count i = 1 ∧ ∀ other, i ∈ u.quicConns.queue other → other = key
  /-- It is open, waits for no stream, and the key is the address that it is connected to. -/
  ready : ∀ i, ∀ key, i ∈ u.quicConns.queue key → ∃ session, u.sessions[i]? = some session ∧
    session.conn = true ∧ session.requested = 0 ∧ quicKey session.endpoint = key
  noEmpty : ∀ key, u.quicConns key ≠ some []

theorem Sound.tableInvariant (sound : Sound AtClose u) : TableInvariant u := by
  refine ⟨?_, ?_, sound.filed.noEmpty⟩
  · intro i key filed
    refine ⟨List.count_eq_one_of_mem (sound.filed.nodup key) filed, ?_⟩
    intro other alsoFiled
    rcases sound.filed.belongs key i filed with ⟨session, isSession, -, -, isKey⟩
    rcases (sound.filed.belongs other i alsoFiled).of_session isSession with ⟨-, -, isOther⟩
    rw [← isKey, ← isOther]
  · intro i key filed
    exact sound.filed.belongs key i filed

/-- A connection may be closed whatever is asked of it. -/
abbrev InOrder : QuicUpstreams → Prop := Sound fun _ => True

theorem inOrder_of_runs {backends : List BackendEndpoint} {trace : List Effect}
    (runs : Runs step anyInput (start backends) trace u) : InOrder u ∧ Undisturbed trace := by
  apply Runs.invariant ?_ ?_ runs
  · exact ⟨sound_start backends, undisturbed_nil⟩
  · rintro trace u input next effects ⟨sound, undisturbed⟩ _ taken
    have kept := sound.step (fun _ _ _ _ => trivial) taken
    refine ⟨kept.sound, ?_⟩
    intro session outstanding opened
    rcases List.mem_append.mp opened with old | new
    · exact undisturbed session outstanding old
    · exact kept.undisturbed session outstanding new

/--
However the pool is called, streams are reported and connections are closed, the table is in
order, and a session is not asked for a stream before the last one has been reported.
-/
theorem quic_table_invariant {backends : List BackendEndpoint} {trace : List Effect}
    {u : QuicUpstreams}
    (runs : Runs step anyInput (start backends) trace u) :
    TableInvariant u ∧
      ∀ session outstanding, .asyncOpenStream session outstanding ∈ trace → outstanding = 0 := by
  rcases inOrder_of_runs runs with ⟨sound, undisturbed⟩
  exact ⟨sound.tableInvariant, undisturbed⟩

/-- A backend that is reached over TCP, and one that is reached over QUIC. -/
def twoBackends : List BackendEndpoint :=
  [{ backendId := ascii "t", host := ascii "a", port := 80 },
    { backendId := ascii "q", host := ascii "b", port := 443, protocol := .QUIC }]

/-- A pooled connection dies under a request, the retry connects, and is closed before its stream. -/
def closedWhileAsked : List Input :=
  [.asyncConnect (ascii "q") true 0, .newStream 0 (some { id := 0, protocol := .QUIC }) true,
    .asyncConnect (ascii "q") true 1, .newStream 0 none true, .connClosed 1,
    .newStream 1 none true, .asyncConnect (ascii "q") true 2,
    .newStream 2 (some { id := 1, protocol := .QUIC }) true]

theorem quic_table_invariant_closedWhileAsked :
    ∃ trace u, Runs step anyInput (start twoBackends) trace u ∧
      u.quicConns.queue (ascii "b:443") = [2] ∧ TableInvariant u := by
  have reached : (run step (fun _ _ => true) (start twoBackends)
      closedWhileAsked).any (fun last =>
        decide (last.1.quicConns.queue (ascii "b:443") = [2])) = true := by
    decide +kernel
  rcases exists_runs_any reached with ⟨trace, u, runs, filed⟩
  exact ⟨trace, u, runs, filed, (quic_table_invariant runs).1⟩

end QuicUpstreams

end ReverseProxy
