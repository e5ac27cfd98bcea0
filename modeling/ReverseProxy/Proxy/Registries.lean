import Mathlib.Data.Finset.Filter
import ReverseProxy.Machine.Registry
import ReverseProxy.Machine.Run

/-!
# The registries of live objects

A worker keeps two sets of weak references: `ProxyCore::live_relays_` with an entry for
each relay, and `QuicServerEngine::live_sessions_` with one for each server connection.
A session's entry is erased by its `closed_cb_` when its connection is closed.  A relay's
entry is erased only by `graceful_shutdown`, where its loop finds that the relay is gone.

Objects are numbered in the order of their creation.  The loop of `graceful_shutdown`
runs entry by entry, since the relays that it closes may die on the way; the order of
its entries, by the addresses of their control blocks, is arbitrary.
-/

namespace ReverseProxy

open Machine
open scoped List

/-- A `QuicTransportSession` of the server engine. -/
structure ServerSession where
  /-- `conn_` is set, and the connection has the session as its context. -/
  conn : Bool := true
  /-- `self_` is set. -/
  self : Bool := true
  /-- `closed_cb_` is set; it erases the entry of this session. -/
  closedCb : Bool := true
  deriving DecidableEq, Repr

/-- What `ProxyCore` and `QuicServerEngine` know of their relays and sessions. -/
structure Registries where
  /-- `start_quic` has been called. -/
  quicEngine : Bool
  /-- The relays that exist. -/
  relays : Finset ℕ := ∅
  nextRelay : ℕ := 0
  liveRelays : Finset ℕ := ∅
  /-- The sessions that exist. -/
  sessions : ℕ → Option ServerSession := fun _ => none
  nextSession : ℕ := 0
  liveSessions : Finset ℕ := ∅
  /-- The entries that the loop of `graceful_shutdown` has still to visit. -/
  sweep : Option (List ℕ) := none

namespace Registries

/-- What can happen. -/
inductive Event where
  /-- `on_new_tcp_socket`. -/
  | newTcpSocket
  /-- `on_new_conn_cb`. -/
  | newConn
  /-- A stream of a server connection, which `on_new_stream` passes to `on_stream`. -/
  | newStream (session : ℕ)
  /-- `conn_closed_cb`. -/
  | connClosed (session : ℕ)
  /-- The last reference to a relay is gone. -/
  | relayDestroyed (relay : ℕ)
  /-- The last reference to a session is gone. -/
  | sessionDestroyed (session : ℕ)
  /-- The handler of `graceful_shutdown` begins its loop. -/
  | gracefulShutdown (order : List ℕ)
  /-- One round of that loop. -/
  | visit
  /-- What the handler does behind the loop. -/
  | goAway
  /-- The handler of `force_close_quic`. -/
  | forceCloseQuic

/-- What is done. -/
inductive Action where
  | created (relay : ℕ)
  | destroyed (relay : ℕ)
  /-- The loop of `graceful_shutdown` comes to the entry of a relay. -/
  | visited (relay : ℕ)
  /-- `graceful_close`. -/
  | gracefulClose (relay : ℕ)
  /-- The loop finds that the relay is gone, and erases its entry. -/
  | pruned (relay : ℕ)
  /-- `on_new_conn_cb` has run. -/
  | connected (session : ℕ)
  /-- `on_closed` has run. -/
  | closed (session : ℕ)
  /-- `lsquic_conn_going_away` on the connections of these sessions. -/
  | goingAway (sessions : Finset ℕ)
  /-- `lsquic_conn_close` on the connections of these sessions. -/
  | connClose (sessions : Finset ℕ)
  deriving DecidableEq

/-- A call of the QUIC engine. -/
def Action.callsEngine : Action → Bool
  | .goingAway _ | .connClose _ => true
  | _ => false

/-- The registries, and what is done. -/
abbrev Result := Registries × List Action

/-- `on_stream`. -/
def onStream (s : Registries) : Result :=
  ({ s with
      relays := insert s.nextRelay s.relays
      nextRelay := s.nextRelay + 1
      liveRelays := insert s.nextRelay s.liveRelays },
    [.created s.nextRelay])

/-- `on_new_conn_cb`. -/
def onNewConnCb (s : Registries) : Result :=
  ({ s with
      sessions := Function.update s.sessions s.nextSession (some {})
      nextSession := s.nextSession + 1
      liveSessions := insert s.nextSession s.liveSessions },
    [.connected s.nextSession])

/-- `on_closed`, which runs `closed_cb_` once, and `release_self`. -/
def onClosed (s : Registries) (id : ℕ) (session : ServerSession) : Result :=
  ({ s with
      sessions := Function.update s.sessions id
        (some { conn := false, self := false, closedCb := false })
      liveSessions := if session.closedCb then s.liveSessions.erase id else s.liveSessions },
    [.closed id])

/-- Without the context, which `on_closed` clears, `conn_closed_cb` returns at once. -/
def connClosedCb (s : Registries) (id : ℕ) (session : ServerSession) : Result :=
  if session.conn then s.onClosed id session else (s, [])

/-- The destructor, once nothing refers to the session any more. -/
def destroySession (s : Registries) (id : ℕ) : Registries :=
  { s with sessions := Function.update s.sessions id none }

/-- The loops over `live_sessions_`: the sessions that exist, the other entries being erased. -/
def lockSessions (s : Registries) : Finset ℕ :=
  s.liveSessions.filter fun id => (s.sessions id).isSome

/-- One round of the loop in `graceful_shutdown`. -/
def visitRelay (s : Registries) (id : ℕ) (rest : List ℕ) : Result :=
  if id ∈ s.relays then ({ s with sweep := some rest }, [.visited id, .gracefulClose id])
  else
    ({ s with liveRelays := s.liveRelays.erase id, sweep := some rest },
      [.visited id, .pruned id])

/-- One event. -/
def step : Step Registries Event Action := fun s event =>
  match event, s.sweep with
  | .newTcpSocket, none => some s.onStream
  | .newConn, none => if s.quicEngine then some s.onNewConnCb else none
  | .newStream id, none =>
    (s.sessions id).bind fun session => if session.conn then some s.onStream else none
  | .connClosed id, none => (s.sessions id).map (s.connClosedCb id)
  | .relayDestroyed id, _ =>
    if id ∈ s.relays then some ({ s with relays := s.relays.erase id }, [.destroyed id])
    else none
  | .sessionDestroyed id, _ =>
    (s.sessions id).bind fun session =>
      if session.self then none
      else some (s.destroySession id, [])
  | .gracefulShutdown order, none =>
    if order.Nodup ∧ order.toFinset = s.liveRelays then
      some ({ s with sweep := some order }, [])
    else none
  | .visit, some (id :: rest) => some (s.visitRelay id rest)
  | .goAway, some [] =>
    if s.quicEngine then
      some ({ s with liveSessions := s.lockSessions, sweep := none },
        [.goingAway s.lockSessions])
    else some ({ s with sweep := none }, [])
  | .forceCloseQuic, none =>
    if s.quicEngine then
      some ({ s with liveSessions := s.lockSessions }, [.connClose s.lockSessions])
    else some (s, [])
  | _, _ => none

/-- Nothing has been created. -/
def start (quicEngine : Bool) : Registries where
  quicEngine

/-! ## What a step does -/

/-- What a step does. -/
inductive Taken (s : Registries) : Registries → List Action → Prop where
  | created : Taken s s.onStream.1 [.created s.nextRelay]
  | connected : Taken s s.onNewConnCb.1 [.connected s.nextSession]
  | closed (id : ℕ) (session : ServerSession) (isSession : s.sessions id = some session)
      (isConn : session.conn = true) : Taken s (s.onClosed id session).1 [.closed id]
  | relayDestroyed (id : ℕ) (isRelay : id ∈ s.relays) :
      Taken s { s with relays := s.relays.erase id } [.destroyed id]
  | sessionDestroyed (id : ℕ) (session : ServerSession) (isSession : s.sessions id = some session)
      (released : session.self = false) :
      Taken s (s.destroySession id) []
  | sweeps (order : List ℕ) (all : order.toFinset = s.liveRelays) :
      Taken s { s with sweep := some order } []
  | visited (id : ℕ) (rest : List ℕ) (isNext : s.sweep = some (id :: rest)) :
      Taken s (s.visitRelay id rest).1 (s.visitRelay id rest).2
  | notified (sweep : Option (List ℕ)) (within : sweep = s.sweep ∨ sweep = none)
      (live : Finset ℕ) (locked : live = s.liveSessions ∨ live = s.lockSessions)
      (actions : List Action)
      (calls : ∀ action ∈ actions, action.callsEngine = true) :
      Taken s { s with liveSessions := live, sweep } actions

variable {s next : Registries} {event : Event} {actions trace : List Action}

theorem taken_of_step (stepped : step s event = some (next, actions)) : s.Taken next actions := by
  unfold step at stepped
  split at stepped
  · cases stepped
    exact .created
  · rw [Option.ite_none_right_eq_some] at stepped
    rcases stepped with ⟨-, ⟨⟩⟩
    exact .connected
  · rcases Option.bind_eq_some_iff.mp stepped with ⟨session, -, stepped⟩
    rw [Option.ite_none_right_eq_some] at stepped
    rcases stepped with ⟨-, ⟨⟩⟩
    exact .created
  · rcases Option.map_eq_some_iff.mp stepped with ⟨session, isSession, closes⟩
    unfold connClosedCb at closes
    split_ifs at closes with isConn
    · cases closes
      exact .closed _ session isSession isConn
    · cases closes
      exact .notified _ (.inl rfl) _ (.inl rfl) [] (by simp)
  · rw [Option.ite_none_right_eq_some] at stepped
    rcases stepped with ⟨isRelay, ⟨⟩⟩
    exact .relayDestroyed _ isRelay
  · rcases Option.bind_eq_some_iff.mp stepped with ⟨session, isSession, stepped⟩
    rw [Option.ite_none_left_eq_some] at stepped
    rcases stepped with ⟨released, ⟨⟩⟩
    exact .sessionDestroyed _ session isSession (by simpa using released)
  · rw [Option.ite_none_right_eq_some] at stepped
    rcases stepped with ⟨⟨-, all⟩, ⟨⟩⟩
    exact .sweeps _ all
  · rename_i isNext
    rcases Prod.ext_iff.mp (Option.some.inj stepped) with ⟨rfl, rfl⟩
    exact .visited _ _ isNext
  · split_ifs at stepped
    · cases stepped
      exact .notified none (.inr rfl) _ (.inr rfl) _ (by simp [Action.callsEngine])
    · cases stepped
      exact .notified none (.inr rfl) _ (.inl rfl) [] (by simp)
  · split_ifs at stepped
    · cases stepped
      exact .notified _ (.inl rfl) _ (.inr rfl) _ (by simp [Action.callsEngine])
    · cases stepped
      exact .notified _ (.inl rfl) _ (.inl rfl) [] (by simp)
  · cases stepped

/-- A call of the engine is none of the other actions. -/
theorem notMem_of_callsEngine (calls : ∀ action ∈ actions, action.callsEngine = true)
    {action : Action} (other : action.callsEngine = false) : action ∉ actions := by
  intro isAction
  rw [calls action isAction] at other
  cases other

/-! ## The relays -/

theorem marks_relays : Marks Action.created Action.destroyed :=
  ⟨fun _ _ same => Action.created.inj same, fun _ _ same => Action.destroyed.inj same, by simp⟩

theorem marks_entries : Marks Action.created Action.pruned :=
  ⟨fun _ _ same => Action.created.inj same, fun _ _ same => Action.pruned.inj same, by simp⟩

theorem marks_sessions : Marks Action.connected Action.closed :=
  ⟨fun _ _ same => Action.connected.inj same, fun _ _ same => Action.closed.inj same, by simp⟩

/-- The relays and their entries, by what has been done. -/
structure RelaysTracked (trace : List Action) (s : Registries) : Prop where
  relays : Registered .created .destroyed s.nextRelay trace s.relays
  entries : Registered .created .pruned s.nextRelay trace s.liveRelays
  /-- An entry is erased where the loop visits it after its relay is gone. -/
  pruned : ∀ id, .pruned id ∈ trace ↔ [.destroyed id, .visited id] <+ trace
  swept : ∀ order ∈ s.sweep, ∀ id ∈ order, id < s.nextRelay

/-- Without a visit the actions of a step do not erase the entry. -/
theorem RelaysTracked.pruned_append (tracked : RelaysTracked trace s) {id : ℕ}
    (unvisited : .visited id ∉ actions) (unpruned : .pruned id ∉ actions) :
    .pruned id ∈ trace ++ actions ↔ [.destroyed id, .visited id] <+ trace ++ actions := by
  rw [List.mem_append, or_iff_left unpruned, pair_sublist_append_iff unvisited]
  exact tracked.pruned id

theorem RelaysTracked.onStream (tracked : RelaysTracked trace s) :
    RelaysTracked (trace ++ [.created s.nextRelay]) s.onStream.1 := by
  refine ⟨tracked.relays.create marks_relays, tracked.entries.create marks_entries, ?_, ?_⟩
  · exact fun id => tracked.pruned_append (by simp) (by simp)
  · intro order isSweep id idMem
    exact (tracked.swept order isSweep id idMem).trans (Nat.lt_succ_self _)

theorem RelaysTracked.destroy (tracked : RelaysTracked trace s) {id : ℕ} (isRelay : id ∈ s.relays) :
    RelaysTracked (trace ++ [.destroyed id]) { s with relays := s.relays.erase id } := by
  have less := ((tracked.relays.members id).mp isRelay).1
  exact ⟨tracked.relays.remove marks_relays less, tracked.entries.frame (by simp),
    fun other => tracked.pruned_append (by simp) (by simp), tracked.swept⟩

/-- The loop of `graceful_shutdown` erases the entries of relays that are gone. -/
theorem RelaysTracked.visitRelay (tracked : RelaysTracked trace s) {id : ℕ} {rest : List ℕ}
    (isNext : s.sweep = some (id :: rest)) :
    RelaysTracked (trace ++ (s.visitRelay id rest).2) (s.visitRelay id rest).1 := by
  have swept : ∀ other ∈ id :: rest, other < s.nextRelay := tracked.swept _ isNext
  rw [List.forall_mem_cons] at swept
  unfold Registries.visitRelay
  split_ifs with isRelay
  · have present := ((tracked.relays.members id).mp isRelay).2
    refine ⟨tracked.relays.frame (by simp), tracked.entries.frame (by simp), ?_, ?_⟩
    · intro other
      by_cases same : other = id
      · subst same
        have unpruned : .pruned other ∉ trace := by
          intro isPruned
          exact present (((tracked.pruned other).mp isPruned).subset List.mem_cons_self)
        refine iff_of_false (by simpa using unpruned) ?_
        intro visited
        exact present (by simpa using visited.subset List.mem_cons_self)
      · exact tracked.pruned_append (by simp [same]) (by simp)
    · rintro _ ⟨⟩
      exact swept.2
  · have isGone : .destroyed id ∈ trace := by
      by_contra present
      exact isRelay ((tracked.relays.members id).mpr ⟨swept.1, present⟩)
    refine ⟨tracked.relays.frame (by simp), ?_, ?_, ?_⟩
    · rw [List.append_cons]
      exact (tracked.entries.frame (by simp)).remove marks_entries swept.1
    · intro other
      by_cases same : other = id
      · subst same
        refine iff_of_true (by simp) ?_
        exact (List.singleton_sublist.mpr isGone).append (List.singleton_sublist.mpr (by simp))
      · exact tracked.pruned_append (by simp [same]) (by simp [same])
    · rintro _ ⟨⟩
      exact swept.2

/-- What is done with sessions leaves the relays as they are. -/
theorem RelaysTracked.frame (tracked : RelaysTracked trace s)
    (others : ∀ id, .created id ∉ actions ∧ .destroyed id ∉ actions ∧ .visited id ∉ actions ∧
      .pruned id ∉ actions) : RelaysTracked (trace ++ actions) s := by
  refine ⟨tracked.relays.frame ?_, tracked.entries.frame ?_, ?_, tracked.swept⟩
  · exact fun id => ⟨(others id).1, (others id).2.1⟩
  · exact fun id => ⟨(others id).1, (others id).2.2.2⟩
  · exact fun id => tracked.pruned_append (others id).2.2.1 (others id).2.2.2

/-- The sessions are not looked at, and the loop may end. -/
theorem RelaysTracked.congr (tracked : RelaysTracked trace s) (sameNext : next.nextRelay = s.nextRelay)
    (sameRelays : next.relays = s.relays) (sameEntries : next.liveRelays = s.liveRelays)
    (swept : ∀ order ∈ next.sweep, ∀ id ∈ order, id < s.nextRelay) : RelaysTracked trace next := by
  refine ⟨?_, ?_, tracked.pruned, ?_⟩
  · rw [sameNext, sameRelays]
    exact tracked.relays
  · rw [sameNext, sameEntries]
    exact tracked.entries
  · rw [sameNext]
    exact swept

theorem RelaysTracked.step (tracked : RelaysTracked trace s) (taken : s.Taken next actions) :
    RelaysTracked (trace ++ actions) next := by
  cases taken with
  | created => exact tracked.onStream
  | relayDestroyed id isRelay => exact tracked.destroy isRelay
  | visited id rest isNext => exact tracked.visitRelay isNext
  | connected => exact (tracked.frame (by simp)).congr rfl rfl rfl tracked.swept
  | closed id session _ _ => exact (tracked.frame (by simp)).congr rfl rfl rfl tracked.swept
  | sessionDestroyed id session _ _ =>
    exact (tracked.frame (by simp)).congr rfl rfl rfl tracked.swept
  | sweeps order all =>
    refine (tracked.frame (by simp)).congr rfl rfl rfl ?_
    rintro _ ⟨⟩ id idMem
    rw [← List.mem_toFinset, all] at idMem
    exact ((tracked.entries.members id).mp idMem).1
  | notified sweep within live locked _ calls =>
    have others : ∀ {action : Action}, action.callsEngine = false → action ∉ actions :=
      notMem_of_callsEngine calls
    have framed := tracked.frame fun id => ⟨others rfl, others rfl, others rfl, others rfl⟩
    refine framed.congr rfl rfl rfl ?_
    rcases within with rfl | rfl
    · exact tracked.swept
    · simp

/-! ## The sessions -/

/-- The sessions and their entries, by what has been done. -/
structure SessionsTracked (trace : List Action) (s : Registries) : Prop where
  entries : Registered .connected .closed s.nextSession trace s.liveSessions
  /-- A session with an entry owns itself, so that it exists. -/
  owned : ∀ id ∈ s.liveSessions, s.sessions id = some {}
  released : ∀ id session, s.sessions id = some session → id ∉ s.liveSessions →
    session.conn = false

@[simp]
theorem sessions_onNewConnCb :
    s.onNewConnCb.1.sessions = Function.update s.sessions s.nextSession (some {}) := rfl

@[simp]
theorem liveSessions_onNewConnCb :
    s.onNewConnCb.1.liveSessions = insert s.nextSession s.liveSessions := rfl

@[simp]
theorem sessions_onClosed (id : ℕ) (session : ServerSession) :
    (s.onClosed id session).1.sessions =
      Function.update s.sessions id (some { conn := false, self := false, closedCb := false }) := rfl

@[simp]
theorem sessions_destroySession (id : ℕ) :
    (s.destroySession id).sessions = Function.update s.sessions id none := rfl

theorem SessionsTracked.lockSessions_eq (tracked : SessionsTracked trace s) :
    s.lockSessions = s.liveSessions := by
  rw [lockSessions, Finset.filter_eq_self]
  intro id isEntry
  rw [tracked.owned id isEntry]
  rfl

theorem SessionsTracked.onNewConnCb (tracked : SessionsTracked trace s) :
    SessionsTracked (trace ++ [.connected s.nextSession]) s.onNewConnCb.1 := by
  refine ⟨tracked.entries.create marks_sessions, ?_, ?_⟩
  · intro id isEntry
    by_cases isNew : id = s.nextSession
    · rw [isNew]
      exact Function.update_self _ _ _
    · have old := Finset.mem_of_mem_insert_of_ne isEntry isNew
      rw [sessions_onNewConnCb, Function.update_of_ne isNew]
      exact tracked.owned id old
  · intro id session isSession noEntry
    rw [liveSessions_onNewConnCb, Finset.mem_insert, not_or] at noEntry
    rw [sessions_onNewConnCb, Function.update_of_ne noEntry.1] at isSession
    exact tracked.released id session isSession noEntry.2

/-- A session whose connection is not closed has its entry and the callback that erases it. -/
theorem SessionsTracked.onClosed (tracked : SessionsTracked trace s) {id : ℕ}
    {session : ServerSession} (isSession : s.sessions id = some session)
    (isConn : session.conn = true) :
    SessionsTracked (trace ++ [.closed id]) (s.onClosed id session).1 := by
  have isEntry : id ∈ s.liveSessions := by
    by_contra noEntry
    rw [tracked.released id session isSession noEntry] at isConn
    cases isConn
  have less := ((tracked.entries.members id).mp isEntry).1
  obtain rfl : {} = session :=
    Option.some.inj ((tracked.owned id isEntry).symm.trans isSession)
  refine ⟨tracked.entries.remove marks_sessions less, ?_, ?_⟩
  · intro other isOther
    rcases Finset.mem_erase.mp isOther with ⟨differs, isOther⟩
    rw [sessions_onClosed, Function.update_of_ne differs]
    exact tracked.owned other isOther
  · intro other session isSession noEntry
    by_cases same : other = id
    · rw [same, sessions_onClosed, Function.update_self] at isSession
      cases isSession
      rfl
    · rw [sessions_onClosed, Function.update_of_ne same] at isSession
      refine tracked.released other session isSession ?_
      intro isOther
      exact noEntry (Finset.mem_erase.mpr ⟨same, isOther⟩)

theorem SessionsTracked.destroy (tracked : SessionsTracked trace s) {id : ℕ}
    {session : ServerSession} (isSession : s.sessions id = some session)
    (released : session.self = false) : SessionsTracked trace (s.destroySession id) := by
  have noEntry : id ∉ s.liveSessions := by
    intro isEntry
    rw [tracked.owned id isEntry] at isSession
    cases isSession
    cases released
  refine ⟨tracked.entries, ?_, ?_⟩
  · intro other isOther
    have differs : other ≠ id := by
      rintro rfl
      exact noEntry isOther
    rw [sessions_destroySession, Function.update_of_ne differs]
    exact tracked.owned other isOther
  · intro other session isSession noEntry
    by_cases same : other = id
    · rw [same, sessions_destroySession, Function.update_self] at isSession
      cases isSession
    · rw [sessions_destroySession, Function.update_of_ne same] at isSession
      exact tracked.released other session isSession noEntry

/-- What is done with relays leaves the sessions as they are. -/
theorem SessionsTracked.frame (tracked : SessionsTracked trace s)
    (others : ∀ id, .connected id ∉ actions ∧ .closed id ∉ actions)
    (sameNext : next.nextSession = s.nextSession) (sameSessions : next.sessions = s.sessions)
    (sameEntries : next.liveSessions = s.liveSessions) :
    SessionsTracked (trace ++ actions) next := by
  refine ⟨?_, ?_, ?_⟩
  · rw [sameNext, sameEntries]
    exact tracked.entries.frame others
  · rw [sameEntries, sameSessions]
    exact tracked.owned
  · rw [sameEntries, sameSessions]
    exact tracked.released

theorem SessionsTracked.step (tracked : SessionsTracked trace s) (taken : s.Taken next actions) :
    SessionsTracked (trace ++ actions) next := by
  cases taken with
  | created => exact tracked.frame (by simp) rfl rfl rfl
  | relayDestroyed id isRelay => exact tracked.frame (by simp) rfl rfl rfl
  | visited id rest isNext =>
    unfold visitRelay
    split_ifs
    · exact tracked.frame (by simp) rfl rfl rfl
    · exact tracked.frame (by simp) rfl rfl rfl
  | connected => exact tracked.onNewConnCb
  | closed id session isSession isConn => exact tracked.onClosed isSession isConn
  | sessionDestroyed id session isSession released =>
    rw [List.append_nil]
    exact tracked.destroy isSession released
  | sweeps order all => exact tracked.frame (by simp) rfl rfl rfl
  | notified sweep within live locked _ calls =>
    have others : ∀ {action : Action}, action.callsEngine = false → action ∉ actions :=
      notMem_of_callsEngine calls
    refine tracked.frame (fun id => ⟨others rfl, others rfl⟩) rfl rfl ?_
    rcases locked with rfl | rfl
    · rfl
    · exact tracked.lockSessions_eq

/-! ## Whole runs -/

/-- Both registries, by what has been done. -/
def Tracked (trace : List Action) (s : Registries) : Prop :=
  RelaysTracked trace s ∧ SessionsTracked trace s

theorem tracked_start (quicEngine : Bool) : Tracked [] (start quicEngine) := by
  refine ⟨⟨.nil, .nil, by simp, by simp [start]⟩, ⟨.nil, ?_, ?_⟩⟩
  · intro id isEntry
    cases isEntry
  · intro id session isSession
    cases isSession

theorem tracked_of_runs {quicEngine : Bool}
    (runs : Runs step anyInput (start quicEngine) trace s) : Tracked trace s := by
  apply Runs.invariant (tracked_start quicEngine) ?_ runs
  intro trace s event next actions tracked _ stepped
  have taken := taken_of_step stepped
  exact ⟨tracked.1.step taken, tracked.2.step taken⟩

/--
`live_sessions_` always has exactly the connections that are not closed.  `live_relays_`
has exactly the relays that exist when each relay that is gone was visited by a
`graceful_shutdown` afterwards; until then it has every relay that was ever created.
-/
theorem registries_exact_iff {quicEngine : Bool}
    (runs : Runs step anyInput (start quicEngine) trace s) :
    (∀ id, id ∈ s.liveSessions ↔ .connected id ∈ trace ∧ .closed id ∉ trace) ∧
    ((∀ id, id ∈ s.liveRelays ↔ .created id ∈ trace ∧ .destroyed id ∉ trace) ↔
      ∀ id, .destroyed id ∈ trace → [.destroyed id, .visited id] <+ trace) ∧
    ((∀ id, ¬[.destroyed id, .visited id] <+ trace) →
      ∀ id, id ∈ s.liveRelays ↔ .created id ∈ trace) := by
  rcases tracked_of_runs runs with ⟨relays, sessions⟩
  simp only [← relays.pruned, relays.entries.mem_iff]
  refine ⟨sessions.entries.mem_iff, ?_, ?_⟩
  · constructor
    · intro tracks id isGone
      by_contra unpruned
      have less := relays.relays.bounded id isGone
      have isCreated := (relays.entries.numbered id).mpr less
      exact ((tracks id).mp ⟨isCreated, unpruned⟩).2 isGone
    · intro visited id
      refine and_congr_right fun _ => not_congr ?_
      refine ⟨?_, visited id⟩
      intro isPruned
      exact ((relays.pruned id).mp isPruned).subset List.mem_cons_self
  · exact fun unpruned id => and_iff_left (unpruned id)

theorem registries_exact_afterShutdown :
    ∃ trace s, Runs step anyInput (start true) trace s ∧
      .destroyed 0 ∈ trace ∧ .closed 0 ∈ trace ∧
      (∀ id, id ∈ s.liveSessions ↔ .connected id ∈ trace ∧ .closed id ∉ trace) ∧
      ((∀ id, id ∈ s.liveRelays ↔ .created id ∈ trace ∧ .destroyed id ∉ trace) ↔
        ∀ id, .destroyed id ∈ trace → [.destroyed id, .visited id] <+ trace) ∧
      ((∀ id, ¬[.destroyed id, .visited id] <+ trace) →
        ∀ id, id ∈ s.liveRelays ↔ .created id ∈ trace) := by
  have reached : (run step (fun _ _ => true) (start true)
      [.newConn, .newStream 0, .newTcpSocket, .relayDestroyed 0, .connClosed 0,
        .gracefulShutdown [1, 0], .visit, .visit, .goAway]).any
      (fun last => decide (.destroyed 0 ∈ last.2 ∧ .closed 0 ∈ last.2)) = true := by
    decide +kernel
  rcases exists_runs_any reached with ⟨trace, s, runs, shows⟩
  have done := shows
  exact ⟨trace, s, runs, done.1, done.2, registries_exact_iff runs⟩

/-- One connection that has come and gone leaves an entry. -/
theorem liveRelays_keeps_entry :
    ∃ trace s, Runs step anyInput (start false) trace s ∧
      .created 0 ∈ trace ∧ .destroyed 0 ∈ trace ∧ s.relays = ∅ ∧ 0 ∈ s.liveRelays := by
  have reached : (run step (fun _ _ => true) (start false)
      [.newTcpSocket, .relayDestroyed 0]).any
      (fun last => decide (.created 0 ∈ last.2 ∧ .destroyed 0 ∈ last.2 ∧ last.1.relays = ∅ ∧
        0 ∈ last.1.liveRelays)) = true := by
    decide +kernel
  exact exists_runs_any reached

end Registries

end ReverseProxy
