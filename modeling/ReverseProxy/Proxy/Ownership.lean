import ReverseProxy.Machine.Ownership
import ReverseProxy.Machine.Registry
import ReverseProxy.Machine.Run

/-!
# Who keeps whom alive

The strong references around `pump_body_to_stream` (`codec/http_message.cpp`) and around
`new_stream_cb_` of a `QuicTransportSession`, as `UpstreamPool::open_quic_stream` sets it.

The function that `pump` points to is a closure that captures `pump` itself, and nobody
resets it.  The closure that `open_quic_stream` stores in a session captures the session,
and neither `on_closed` nor `release_self` clears it; the callback of `ProxyCore::on_session`
captures no object.  What the other objects hold is arbitrary here (`rest`), and so is which
of the pooled sessions `quic_connect` takes.
-/

namespace ReverseProxy

open Machine

/-- The objects on the heap. -/
inductive HeapObject where
  /-- The function of a call of `pump_body_to_stream`, with the closure stored in it. -/
  | pump (call : ℕ)
  /-- `buf`. -/
  | buffer (call : ℕ)
  /-- The closure that waits for `async_read_some`. -/
  | readHandler (call : ℕ)
  /-- The closure that waits for `async_write_some`. -/
  | writeHandler (call : ℕ)
  | body (id : ℕ)
  | stream (id : ℕ)
  | relay (id : ℕ)
  | session (id : ℕ)
  /-- The closure stored in `new_stream_cb_` of a session. -/
  | newStreamCb (session : ℕ)
  deriving DecidableEq, Repr

/-- The objects whose members are not described here. -/
def HeapObject.isOther : HeapObject → Bool
  | .body _ | .stream _ | .relay _ => true
  | _ => false

/-- How far a pump is. -/
inductive PumpPhase where
  /-- `async_read_some` is outstanding. -/
  | reading
  /-- `async_write_some` is outstanding. -/
  | writing
  /-- The callback has been invoked. -/
  | finished
  deriving DecidableEq, Repr

/-- A call of `pump_body_to_stream`; its callback captures a relay. -/
structure PumpCall where
  stream : ℕ
  body : ℕ
  relay : ℕ
  phase : PumpPhase := .reading
  deriving DecidableEq, Repr

/-- The captures of the closure stored in `*pump`, and of the handler of its read. -/
def PumpCall.captures (pump : PumpCall) (call : ℕ) : List HeapObject :=
  [.stream pump.stream, .body pump.body, .relay pump.relay, .pump call, .buffer call]

/-- `new_stream_cb_` of a session. -/
inductive NewStreamCb where
  | empty
  /-- `[this, codec]`, set by `ProxyCore::on_session`. -/
  | onSession
  /-- `[this, session, ep, from_pool, cb]`; a `cb` that was moved away holds no relay. -/
  | openQuicStream (session : ℕ) (fromPool : Bool) (relay : Option ℕ)
  deriving DecidableEq, Repr

/-- What the callback owns. -/
def NewStreamCb.captures : NewStreamCb → List HeapObject
  | .empty | .onSession => []
  | .openQuicStream session _ relay => .session session :: (relay.map HeapObject.relay).toList

/-- A `QuicTransportSession`, of either engine. -/
structure OwnedSession where
  /-- `conn_` is set. -/
  conn : Bool := true
  /-- `self_` is set. -/
  self : Bool := true
  newStreamCb : NewStreamCb := .empty
  deriving DecidableEq, Repr

/-- `on_closed` and `release_self` have run. -/
def OwnedSession.Released (session : OwnedSession) : Prop :=
  session.conn = false ∧ session.self = false

/-- The calls of the pump and the sessions, each numbered in the order of creation. -/
structure ObjectGraph where
  pumps : List PumpCall := []
  sessions : List OwnedSession := []
  /-- `quic_conns_` of the pool, over all endpoints. -/
  quicConns : List ℕ := []
  deriving DecidableEq, Repr

namespace ObjectGraph

/-! ## Strong references -/

/-- A strong reference: a `shared_ptr` that is a member or is captured by value. -/
inductive Holds (rest : HeapObject → HeapObject → Prop) (s : ObjectGraph) :
    HeapObject → HeapObject → Prop where
  | pump {call : ℕ} {pump : PumpCall} {object : HeapObject} (isCall : s.pumps[call]? = some pump)
      (captured : object ∈ pump.captures call) : Holds rest s (.pump call) object
  | readHandler {call : ℕ} {pump : PumpCall} {object : HeapObject}
      (isCall : s.pumps[call]? = some pump) (reading : pump.phase = .reading)
      (captured : object ∈ pump.captures call) : Holds rest s (.readHandler call) object
  | writeHandler {call : ℕ} {pump : PumpCall} {object : HeapObject}
      (isCall : s.pumps[call]? = some pump) (writing : pump.phase = .writing)
      (captured : object ∈ [.pump call, .relay pump.relay]) : Holds rest s (.writeHandler call) object
  | self {id : ℕ} {session : OwnedSession} (isSession : s.sessions[id]? = some session)
      (isSelf : session.self = true) : Holds rest s (.session id) (.session id)
  | newStreamCb {id : ℕ} {session : OwnedSession} (isSession : s.sessions[id]? = some session)
      (isSet : session.newStreamCb ≠ .empty) : Holds rest s (.session id) (.newStreamCb id)
  | captured {id : ℕ} {session : OwnedSession} {object : HeapObject}
      (isSession : s.sessions[id]? = some session)
      (captured : object ∈ session.newStreamCb.captures) : Holds rest s (.newStreamCb id) object
  | rest {holder object : HeapObject} (isOther : holder.isOther = true)
      (holds : rest holder object) : Holds rest s holder object

/-- No finished call of the pump keeps anything alive by a cycle through its function. -/
def PumpsReleased (rest : HeapObject → HeapObject → Prop) (s : ObjectGraph) : Prop :=
  ∀ (call : ℕ) (pump : PumpCall), s.pumps[call]? = some pump → pump.phase = .finished →
    ∀ object ∈ pump.captures call, ¬Ownership.KeptByCycle (s.Holds rest) (.pump call) object

/-- No closed session keeps itself or a relay alive by a cycle through its `new_stream_cb_`. -/
def SessionsReleased (rest : HeapObject → HeapObject → Prop) (s : ObjectGraph) : Prop :=
  ∀ (id : ℕ) (session : OwnedSession), s.sessions[id]? = some session → session.Released →
    ∀ object ∈ .session id :: session.newStreamCb.captures,
      ¬Ownership.KeptByCycle (s.Holds rest) (.newStreamCb id) object

/-! ## Steps -/

/-- What can happen. -/
inductive Event where
  /-- `pump_body_to_stream`. -/
  | pumpBodyToStream (stream body relay : ℕ)
  /-- The handler of the read, at the end of the body or with an error (`ended`) or with data. -/
  | readDone (call : ℕ) (ended : Bool)
  | writeDone (call : ℕ) (failed : Bool)
  /-- `on_new_conn_cb` of the server engine, with `on_session`. -/
  | serverConn
  /-- `on_new_conn_cb` of the client engine, with the relay of the pending connect if any. -/
  | clientConn (pending : Option ℕ)
  /-- `quic_connect` with a session of the pool. -/
  | reuse (session relay : ℕ)
  /-- `on_new_stream`, with a stream or with a null pointer. -/
  | onNewStream (session : ℕ) (arrives : Bool)
  /-- `conn_closed_cb`. -/
  | connClosed (session : ℕ)
  deriving DecidableEq, Repr

/-- What is done. -/
inductive Action where
  /-- The callback of a call of the pump is invoked. -/
  | finished (call : ℕ)
  /-- `open_quic_stream` on a session. -/
  | opened (session : ℕ)
  /-- `on_closed` and `release_self` of a session. -/
  | closed (session : ℕ)
  deriving DecidableEq, Repr

/-- Changes the phase of a pump. -/
def setPhase (s : ObjectGraph) (call : ℕ) (pump : PumpCall) (phase : PumpPhase) : ObjectGraph :=
  { s with pumps := s.pumps.set call { pump with phase } }

/-- The callback of the pump is invoked and its handler returns. -/
def finish (s : ObjectGraph) (call : ℕ) (pump : PumpCall) : ObjectGraph × List Action :=
  (s.setPhase call pump .finished, [.finished call])

/-- A handler of the pump, which ends the call or goes on with another operation. -/
def onHandler (s : ObjectGraph) (call : ℕ) (pump : PumpCall) (ended : Bool) (next : PumpPhase) :
    ObjectGraph × List Action :=
  if ended then s.finish call pump else (s.setPhase call pump next, [])

/-- Changes a session. -/
def setSession (s : ObjectGraph) (id : ℕ) (session : OwnedSession) : ObjectGraph :=
  { s with sessions := s.sessions.set id session }

/-- `open_quic_stream`; the stream arrives in a later step. -/
def openQuicStream (s : ObjectGraph) (id : ℕ) (session : OwnedSession) (fromPool : Bool)
    (relay : ℕ) : ObjectGraph × List Action :=
  (s.setSession id { session with newStreamCb := .openQuicStream id fromPool (some relay) },
    [.opened id])

/-- `new_stream_cb_` is called. -/
def callNewStreamCb (s : ObjectGraph) (id : ℕ) (session : OwnedSession) (arrives : Bool) :
    ObjectGraph :=
  match session.newStreamCb with
  | .empty | .onSession => s
  | .openQuicStream captured fromPool relay =>
    if arrives then { s with quicConns := s.quicConns ++ [captured] }
    else
      -- A stale session of the pool: `cb` is moved to another connect.
      let left := if fromPool then none else relay
      { s.setSession id
          { session with newStreamCb := .openQuicStream captured fromPool left } with
        quicConns := s.quicConns.erase captured }

/-- `on_closed`, whose `closed_cb_` takes the session from the pool, and `release_self`. -/
def onClosed (s : ObjectGraph) (id : ℕ) (session : OwnedSession) : ObjectGraph × List Action :=
  ({ s.setSession id { session with conn := false, self := false } with
      quicConns := s.quicConns.erase id },
    [.closed id])

/-- One event. -/
def step : Step ObjectGraph Event Action := fun s event =>
  match event with
  | .pumpBodyToStream stream body relay =>
    some ({ s with pumps := s.pumps ++ [{ stream, body, relay }] }, [])
  | .readDone call ended =>
    s.pumps[call]?.bind fun pump =>
      if pump.phase = .reading then some (s.onHandler call pump ended .writing) else none
  | .writeDone call failed =>
    s.pumps[call]?.bind fun pump =>
      if pump.phase = .writing then some (s.onHandler call pump failed .reading) else none
  | .serverConn => some ({ s with sessions := s.sessions ++ [{ newStreamCb := .onSession }] }, [])
  | .clientConn none => some ({ s with sessions := s.sessions ++ [{}] }, [])
  | .clientConn (some relay) =>
    some (openQuicStream { s with sessions := s.sessions ++ [{}] } s.sessions.length {} false relay)
  | .reuse id relay =>
    s.sessions[id]?.bind fun session =>
      if id ∈ s.quicConns then
        some (openQuicStream { s with quicConns := s.quicConns.erase id } id session true relay)
      else none
  | .onNewStream id arrives =>
    s.sessions[id]?.bind fun session =>
      if session.conn then some (s.callNewStreamCb id session arrives, []) else none
  | .connClosed id =>
    s.sessions[id]?.bind fun session =>
      if session.conn then some (s.onClosed id session) else none

/-! ## What has been done -/

/-- The closure of `open_quic_stream` is stored in the session that it captures. -/
def Opened (id : ℕ) (session : OwnedSession) : Prop :=
  ∃ fromPool relay, session.newStreamCb = .openQuicStream id fromPool relay

/-- The graph by what has been done: the calls that have finished, the sessions that were
opened and the sessions that are closed. -/
structure Recorded (trace : List Action) (s : ObjectGraph) : Prop where
  finished : Marked .finished (fun _ pump => pump.phase = .finished) trace s.pumps
  closed : Marked .closed (fun _ session => session.Released) trace s.sessions
  opened : Marked .opened Opened trace s.sessions
  /-- A session that was not opened captures nothing. -/
  unopened : ∀ (id : ℕ) (session : OwnedSession), s.sessions[id]? = some session →
    Opened id session ∨ session.newStreamCb.captures = []

variable {s next : ObjectGraph} {event : Event} {actions trace : List Action}

theorem recorded_nil : Recorded [] {} :=
  ⟨.nil, .nil, .nil, by simp⟩

theorem Recorded.addPump (recorded : Recorded trace s) {pump : PumpCall}
    (running : pump.phase ≠ .finished) :
    Recorded (trace ++ []) { s with pumps := s.pumps ++ [pump] } := by
  refine ⟨recorded.finished.concat ?_ (by simp), recorded.closed.frame (by simp),
    recorded.opened.frame (by simp), recorded.unopened⟩
  simpa using running

theorem Recorded.setPhase (recorded : Recorded trace s) {call : ℕ} {pump : PumpCall}
    {phase : PumpPhase} (isCall : s.pumps[call]? = some pump) (running : pump.phase ≠ .finished)
    (isFinished : phase = .finished ↔ .finished call ∈ actions)
    (others : ∀ action ∈ actions, action = .finished call) :
    Recorded (trace ++ actions) (s.setPhase call pump phase) := by
  refine ⟨recorded.finished.set isCall ?_ ?_, recorded.closed.frame ?_,
    recorded.opened.frame ?_, recorded.unopened⟩
  · rw [← isFinished, or_iff_right running]
  · intro other differs isAction
    exact differs (Action.finished.inj (others _ isAction))
  · intro id isAction
    cases others _ isAction
  · intro id isAction
    cases others _ isAction

theorem Recorded.onHandler (recorded : Recorded trace s) {call : ℕ} {pump : PumpCall}
    {phase : PumpPhase} (isCall : s.pumps[call]? = some pump) (running : pump.phase ≠ .finished)
    (ended : Bool) (goesOn : phase ≠ .finished) :
    Recorded (trace ++ (s.onHandler call pump ended phase).2)
      (s.onHandler call pump ended phase).1 := by
  cases ended with
  | false =>
    change Recorded (trace ++ []) (s.setPhase call pump phase)
    exact recorded.setPhase isCall running (by simp [goesOn]) (by simp)
  | true =>
    change Recorded (trace ++ [.finished call]) (s.setPhase call pump .finished)
    exact recorded.setPhase isCall running (by simp) (by simp)

variable {session : OwnedSession}

theorem Recorded.addSession (recorded : Recorded trace s) (isConn : session.conn = true)
    (unset : session.newStreamCb.captures = []) :
    Recorded (trace ++ []) { s with sessions := s.sessions ++ [session] } := by
  have unopened : ∀ id, ¬Opened id session := by
    rintro id ⟨fromPool, relay, isCb⟩
    rw [isCb] at unset
    cases unset
  refine ⟨recorded.finished.frame (by simp), recorded.closed.concat ?_ (by simp),
    recorded.opened.concat ?_ (by simp), ?_⟩
  · simp [OwnedSession.Released, isConn]
  · simp [unopened]
  · intro id other isOther
    rw [List.getElem?_append] at isOther
    split_ifs at isOther with less
    · exact recorded.unopened id other isOther
    · rw [List.getElem?_singleton] at isOther
      split_ifs at isOther
      cases isOther
      exact .inr unset

theorem Recorded.setSession (recorded : Recorded trace s) {id : ℕ} {old new : OwnedSession}
    (isOld : s.sessions[id]? = some old)
    (closes : new.Released ↔ old.Released ∨ .closed id ∈ actions)
    (opens : Opened id new ↔ Opened id old ∨ .opened id ∈ actions)
    (unopened : Opened id new ∨ new.newStreamCb.captures = [])
    (others : ∀ action ∈ actions, action = .closed id ∨ action = .opened id) :
    Recorded (trace ++ actions) (s.setSession id new) := by
  refine ⟨recorded.finished.frame ?_, recorded.closed.set isOld closes ?_,
    recorded.opened.set isOld opens ?_, ?_⟩
  · intro call isAction
    rcases others _ isAction with isClosed | isOpened
    · cases isClosed
    · cases isOpened
  · intro other differs isAction
    rcases others _ isAction with isClosed | isOpened
    · exact differs (Action.closed.inj isClosed)
    · cases isOpened
  · intro other differs isAction
    rcases others _ isAction with isClosed | isOpened
    · cases isClosed
    · exact differs (Action.opened.inj isOpened)
  · intro other session isSession
    rw [ObjectGraph.setSession, List.getElem?_set] at isSession
    split_ifs at isSession with same less
    · cases isSession
      rw [← same]
      exact unopened
    · exact recorded.unopened other session isSession

/-- The table of pooled sessions is not looked at. -/
theorem Recorded.setConns (recorded : Recorded trace s) (quicConns : List ℕ) :
    Recorded trace { s with quicConns } :=
  ⟨recorded.finished, recorded.closed, recorded.opened, recorded.unopened⟩

theorem Recorded.openQuicStream (recorded : Recorded trace s) {id : ℕ}
    (isSession : s.sessions[id]? = some session) (fromPool : Bool) (relay : ℕ) :
    Recorded (trace ++ [.opened id]) (s.openQuicStream id session fromPool relay).1 := by
  have isOpened : Opened id
      { session with newStreamCb := .openQuicStream id fromPool (some relay) } := ⟨_, _, rfl⟩
  refine recorded.setSession isSession ?_ ?_ (.inl isOpened) (by simp)
  · simp [OwnedSession.Released]
  · simp [isOpened]

theorem Recorded.callNewStreamCb (recorded : Recorded trace s) {id : ℕ}
    (isSession : s.sessions[id]? = some session) (arrives : Bool) :
    Recorded (trace ++ []) (s.callNewStreamCb id session arrives) := by
  unfold ObjectGraph.callNewStreamCb
  split
  · rw [List.append_nil]
    exact recorded
  · rw [List.append_nil]
    exact recorded
  · rename_i captured fromPool relay isCb
    -- The closure was stored by `open_quic_stream` on this session.
    have isOwn : Opened id session := by
      rcases recorded.unopened id session isSession with isOpened | unset
      · exact isOpened
      · rw [isCb] at unset
        cases unset
    obtain rfl : captured = id := by
      rcases isOwn with ⟨_, _, isCb'⟩
      rw [isCb] at isCb'
      exact (NewStreamCb.openQuicStream.inj isCb').1
    split
    · rw [List.append_nil]
      exact recorded.setConns _
    · refine Recorded.setConns (recorded.setSession isSession ?_ ?_ (.inl ⟨_, _, rfl⟩) (by simp)) _
      · simp [OwnedSession.Released]
      · simp only [List.not_mem_nil, or_false]
        exact iff_of_true ⟨_, _, rfl⟩ isOwn

theorem Recorded.onClosed (recorded : Recorded trace s) {id : ℕ}
    (isSession : s.sessions[id]? = some session) :
    Recorded (trace ++ [.closed id]) (s.onClosed id session).1 := by
  refine Recorded.setConns (recorded.setSession isSession ?_ ?_ ?_ (by simp)) _
  · simp [OwnedSession.Released]
  · simp [Opened]
  · exact recorded.unopened id session isSession

theorem Recorded.step (recorded : Recorded trace s)
    (stepped : step s event = some (next, actions)) : Recorded (trace ++ actions) next := by
  cases event with
  | pumpBodyToStream stream body relay =>
    cases stepped
    exact recorded.addPump (by simp)
  | readDone call ended =>
    rcases Option.bind_eq_some_iff.mp stepped with ⟨pump, isCall, stepped⟩
    rw [Option.ite_none_right_eq_some] at stepped
    rcases stepped with ⟨reading, stepped⟩
    rcases Prod.ext_iff.mp (Option.some.inj stepped) with ⟨rfl, rfl⟩
    exact recorded.onHandler isCall (by simp [reading]) ended (by simp)
  | writeDone call failed =>
    rcases Option.bind_eq_some_iff.mp stepped with ⟨pump, isCall, stepped⟩
    rw [Option.ite_none_right_eq_some] at stepped
    rcases stepped with ⟨writing, stepped⟩
    rcases Prod.ext_iff.mp (Option.some.inj stepped) with ⟨rfl, rfl⟩
    exact recorded.onHandler isCall (by simp [writing]) failed (by simp)
  | serverConn =>
    cases stepped
    exact recorded.addSession rfl rfl
  | clientConn pending =>
    cases pending with
    | none =>
      cases stepped
      exact recorded.addSession rfl rfl
    | some relay =>
      cases stepped
      have added : Recorded (trace ++ []) { s with sessions := s.sessions ++ [{}] } :=
        recorded.addSession rfl rfl
      rw [List.append_nil] at added
      exact added.openQuicStream List.getElem?_concat_length _ _
  | reuse id relay =>
    rcases Option.bind_eq_some_iff.mp stepped with ⟨session, isSession, stepped⟩
    rw [Option.ite_none_right_eq_some] at stepped
    rcases stepped with ⟨-, ⟨⟩⟩
    have removed := recorded.setConns (s.quicConns.erase id)
    exact removed.openQuicStream isSession _ _
  | onNewStream id arrives =>
    rcases Option.bind_eq_some_iff.mp stepped with ⟨session, isSession, stepped⟩
    rw [Option.ite_none_right_eq_some] at stepped
    rcases stepped with ⟨-, ⟨⟩⟩
    exact recorded.callNewStreamCb isSession arrives
  | connClosed id =>
    rcases Option.bind_eq_some_iff.mp stepped with ⟨session, isSession, stepped⟩
    rw [Option.ite_none_right_eq_some] at stepped
    rcases stepped with ⟨-, ⟨⟩⟩
    exact recorded.onClosed isSession

theorem recorded_of_runs (runs : Runs step anyInput {} trace s) : Recorded trace s := by
  apply Runs.invariant recorded_nil ?_ runs
  intro trace s event next actions recorded _ stepped
  exact recorded.step stepped

/-! ## Cycles -/

variable {rest : HeapObject → HeapObject → Prop}

/-- The function of a call holds itself, and with it everything that it captures. -/
theorem keptByCycle_pump {call : ℕ} {pump : PumpCall} (isCall : s.pumps[call]? = some pump)
    {object : HeapObject} (captured : object ∈ pump.captures call) :
    Ownership.KeptByCycle (s.Holds rest) (.pump call) object := by
  have itself : s.Holds rest (.pump call) (.pump call) :=
    .pump isCall (by simp [PumpCall.captures])
  exact ⟨.single itself, .single (.pump isCall captured)⟩

/-- A session that was opened holds a closure that holds the session. -/
theorem keptByCycle_newStreamCb {id : ℕ} (isSession : s.sessions[id]? = some session)
    (isOpened : Opened id session) {object : HeapObject}
    (captured : object ∈ .session id :: session.newStreamCb.captures) :
    Ownership.KeptByCycle (s.Holds rest) (.newStreamCb id) object := by
  rcases isOpened with ⟨fromPool, relay, isCb⟩
  have holdsSession : s.Holds rest (.newStreamCb id) (.session id) :=
    .captured isSession (by simp [isCb, NewStreamCb.captures])
  have holdsCb : s.Holds rest (.session id) (.newStreamCb id) :=
    .newStreamCb isSession (by simp [isCb])
  refine ⟨.tail (.single holdsSession) holdsCb, ?_⟩
  rcases List.mem_cons.mp captured with rfl | captured
  · exact .single holdsSession
  · exact .single (.captured isSession captured)

theorem not_holds_newStreamCb {id : ℕ} (isSession : s.sessions[id]? = some session)
    (unset : session.newStreamCb.captures = []) (object : HeapObject) :
    ¬s.Holds rest (.newStreamCb id) object := by
  intro holds
  cases holds with
  | captured isSession' captured =>
    obtain rfl := Option.some.inj (isSession.symm.trans isSession')
    rw [unset] at captured
    cases captured
  | rest isOther _ => cases isOther

theorem pumpsReleased_iff (recorded : Recorded trace s) :
    s.PumpsReleased rest ↔ ∀ call, .finished call ∉ trace := by
  constructor
  · intro released call isFinished
    rcases (recorded.finished call).mp isFinished with ⟨pump, isCall, finished⟩
    have itself : .pump call ∈ pump.captures call := by simp [PumpCall.captures]
    exact released call pump isCall finished _ itself (keptByCycle_pump isCall itself)
  · intro unfinished call pump isCall finished
    exact absurd ((recorded.finished call).mpr ⟨pump, isCall, finished⟩) (unfinished call)

theorem sessionsReleased_iff (recorded : Recorded trace s) :
    s.SessionsReleased rest ↔ ∀ id, .opened id ∈ trace → .closed id ∉ trace := by
  constructor
  · intro released id isOpened isClosed
    rcases (recorded.opened id).mp isOpened with ⟨session, isSession, opened⟩
    rcases (recorded.closed id).mp isClosed with ⟨session', isSession', closed⟩
    obtain rfl := Option.some.inj (isSession.symm.trans isSession')
    have itself : .session id ∈ .session id :: session.newStreamCb.captures := List.mem_cons_self
    exact released id session isSession closed _ itself
      (keptByCycle_newStreamCb isSession opened itself)
  · intro apart id session isSession closed object _
    rcases recorded.unopened id session isSession with opened | unset
    · have isOpened := (recorded.opened id).mpr ⟨session, isSession, opened⟩
      exact absurd ((recorded.closed id).mpr ⟨session, isSession, closed⟩) (apart id isOpened)
    · exact Ownership.not_keptByCycle_of_holds_none (not_holds_newStreamCb isSession unset)

/--
Whatever the other objects hold: every call of the pump that finishes leaves a cycle, and
so does every session that is closed after `open_quic_stream`.  The sessions of the
server engine leave none.
-/
theorem no_self_ownership_iff (rest : HeapObject → HeapObject → Prop)
    (runs : Runs step anyInput {} trace s) :
    s.PumpsReleased rest ∧ s.SessionsReleased rest ↔
      (∀ call, .finished call ∉ trace) ∧ ∀ id, .opened id ∈ trace → .closed id ∉ trace := by
  have recorded := recorded_of_runs runs
  exact and_congr (pumpsReleased_iff recorded) (sessionsReleased_iff recorded)

theorem no_self_ownership_inUse :
    ∃ trace s, Runs step anyInput {} trace s ∧ .closed 0 ∈ trace ∧
      .opened 1 ∈ trace ∧ s.PumpsReleased (fun _ _ => True) ∧
      s.SessionsReleased (fun _ _ => True) := by
  have reached : (run step (fun _ _ => true) {}
      [.serverConn, .connClosed 0, .clientConn (some 0), .onNewStream 1 true,
        .pumpBodyToStream 0 0 0, .readDone 0 false]).any
      (fun last => decide (last.2 = [.closed 0, .opened 1])) = true := by
    decide +kernel
  rcases exists_runs_any reached with ⟨trace, s, runs, shows⟩
  obtain rfl : trace = [.closed 0, .opened 1] := shows
  have released := (no_self_ownership_iff (fun _ _ => True) runs).mpr ⟨by simp, by simp⟩
  exact ⟨_, s, runs, by simp, by simp, released⟩

/--
A finished call of the pump and a closed session of the pool: with nothing else in the
heap and no reference from outside, none of the objects is ever destroyed.
-/
theorem finished_pump_and_closed_session_kept :
    ∃ trace s, Runs step anyInput {} trace s ∧
      .finished 0 ∈ trace ∧ .closed 0 ∈ trace ∧
      (∀ object ∈ [.stream 0, .body 0, .relay 0, .pump 0, .buffer 0],
        Ownership.KeptByCycle (s.Holds fun _ _ => False) (.pump 0) object ∧
          ¬Ownership.Destroyed (s.Holds fun _ _ => False) (fun _ => False) object) ∧
      ∀ object ∈ [.session 0, .relay 1],
        Ownership.KeptByCycle (s.Holds fun _ _ => False) (.newStreamCb 0) object ∧
          ¬Ownership.Destroyed (s.Holds fun _ _ => False) (fun _ => False) object := by
  have reached : (run step (fun _ _ => true) {}
      [.pumpBodyToStream 0 0 0, .readDone 0 true, .clientConn (some 1), .onNewStream 0 true,
        .connClosed 0]).any
      (fun last => decide (last.2 = [.finished 0, .opened 0, .closed 0] ∧
        last.1.pumps[0]? = some ⟨0, 0, 0, .finished⟩ ∧
        last.1.sessions[0]? =
          some ⟨false, false, .openQuicStream 0 false (some 1)⟩)) = true := by
    decide +kernel
  rcases exists_runs_any reached with ⟨trace, s, runs, shows⟩
  obtain ⟨rfl, isCall, isSession⟩ := shows
  refine ⟨_, s, runs, by simp, by simp, ?_, ?_⟩
  · intro object captured
    have kept : Ownership.KeptByCycle (s.Holds fun _ _ => False) (.pump 0) object :=
      keptByCycle_pump isCall captured
    exact ⟨kept, kept.not_destroyed⟩
  · intro object captured
    have kept : Ownership.KeptByCycle (s.Holds fun _ _ => False) (.newStreamCb 0) object :=
      keptByCycle_newStreamCb isSession ⟨_, _, rfl⟩ (List.mem_cons_of_mem _ captured)
    exact ⟨kept, kept.not_destroyed⟩

end ObjectGraph

end ReverseProxy
