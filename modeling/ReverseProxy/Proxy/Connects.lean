import ReverseProxy.Proxy.QuicTable

/-!
# The callbacks of connects

The connects of `UpstreamPool` (`proxy/upstream_pool.cpp`) over its QUIC half and the TCP
connects that are under way.  A callback is held by a TCP connect or by the session that has
been asked for a stream; the slot for a pending QUIC connect is only filled within
`quic_connect_fresh`.  Every method invokes a callback last, so what a callback does with the
pool is what is done with it next; and a stream that `lsquic_conn_make_stream` reports at once
is reported next.
-/

namespace ReverseProxy

open Machine Text

/-- `UpstreamPool` with the connects that are under way. -/
structure UpstreamConnects extends QuicUpstreams where
  /-- The TCP connects that are under way. -/
  connects : List (BackendEndpoint × ℕ) := []
  /-- The callbacks are numbered in the order in which the pool is handed them. -/
  nextCb : ℕ := 0

namespace UpstreamConnects

/-- How what a call asks for at once turns out. -/
structure Outcomes where
  /-- Whether the host of a TCP endpoint is resolved. -/
  resolves : Bool
  /-- Whether `QuicClientEngine::connect` starts a connection. -/
  connects : Bool
  deriving DecidableEq

/-- What is asked of the pool, and what asio and lsquic report to it. -/
inductive Input where
  | asyncConnect (backendId : Bytes) (outcomes : Outcomes)
  | asyncConnectFresh (endpoint : BackendEndpoint) (outcomes : Outcomes)
  | release (endpoint : BackendEndpoint) (stream : TransportStream)
  /--
  The TCP connect at this position completes; `hasPeer` is whether the connected socket still
  answers `remote_endpoint()` when the handler runs.
  -/
  | connected (position : ℕ) (result : Except ErrorCode TransportStream) (hasPeer : Bool)
  /--
  lsquic reports a stream that a session has asked for, or that there will be none; `found`
  is whether `lsquic_stream_conn` finds the connection of the stream if there is none.
  -/
  | newStream (session : ℕ) (stream : Option TransportStream) (found : Bool) (outcomes : Outcomes)
  | connClosed (session : ℕ)
  deriving DecidableEq

/-- What becomes of callbacks, and what goes wrong. -/
inductive Effect where
  | accepted (cb : ℕ)
  | invoked (cb : ℕ) (result : Except ErrorCode (TransportStream × BackendEndpoint × Bool))
  /-- An exception leaves the pool. -/
  | threw
  /-- A null pointer has been followed. -/
  | crashed
  deriving DecidableEq

/-- The pool after a call, and what the call did. -/
abbrev Result := UpstreamConnects × List Effect

/-- The callbacks that the QUIC half invokes. -/
def Effect.ofQuic : QuicUpstreams.Effect → Option Effect
  | .invoked cb result => some (.invoked cb result)
  | .connect _ | .asyncOpenStream _ _ => none

/-- What the QUIC half has done. -/
def quicHalf (p : UpstreamConnects) (result : QuicUpstreams.Result) : Result :=
  ({ p with toQuicUpstreams := result.1 }, result.2.filterMap Effect.ofQuic)

/-- The overload of `resolve` that is called throws when it fails. -/
def connectFreshTo (p : UpstreamConnects) (target : BackendEndpoint) (outcomes : Outcomes)
    (cb : ℕ) : Result :=
  if outcomes.resolves then ({ p with connects := p.connects ++ [(target, cb)] }, [])
  else (p, [.threw])

/-- The handler of the TCP connect: the constructor of the stream asks for the remote endpoint. -/
def onConnected (target : BackendEndpoint) (cb : ℕ) (hasPeer : Bool) :
    Except ErrorCode TransportStream → List Effect
  | .error ec => [.invoked cb (.error ec)]
  | .ok stream => if hasPeer then [.invoked cb (.ok (stream, target, false))] else [.threw]

/-- What is neither answered at once nor left to the QUIC half is connected over TCP. -/
def asyncConnect (p : UpstreamConnects) (backendId : Bytes) (outcomes : Outcomes) (cb : ℕ) :
    Result :=
  let result := p.quicHalf (p.toQuicUpstreams.asyncConnect backendId outcomes.connects cb)
  match (p.pool.asyncConnect backendId).2 with
  | .connecting endpoint =>
    if endpoint.protocol = .QUIC then result else result.1.connectFreshTo endpoint outcomes cb
  | .notFound | .reused _ _ => result

/-- The pool is not asked. -/
def asyncConnectFresh (p : UpstreamConnects) (endpoint : BackendEndpoint) (outcomes : Outcomes)
    (cb : ℕ) : Result :=
  if endpoint.protocol = .QUIC then
    p.quicHalf (p.toQuicUpstreams.asyncConnectFresh endpoint outcomes.connects cb)
  else p.connectFreshTo endpoint outcomes cb

/-- The glue asks the stream for its connection before it looks at the stream. -/
def newStreamCb (p : UpstreamConnects) (session : ℕ) (opened : UpstreamSession)
    (stream : Option TransportStream) (found : Bool) (outcomes : Outcomes) : Option Result :=
  if stream.isNone && !found then
    some ({ p with
      sessions := p.sessions.set session { opened with requested := opened.requested - 1 } },
      [.crashed])
  else
    (QuicUpstreams.step p.toQuicUpstreams (.newStream session stream outcomes.connects)).map
      p.quicHalf

/-- A method that is handed a callback. -/
def accept (p : UpstreamConnects) (method : UpstreamConnects → ℕ → Result) : Result :=
  let result := method { p with nextCb := p.nextCb + 1 } p.nextCb
  (result.1, .accepted p.nextCb :: result.2)

/-- lsquic reports each stream that it has been asked for once, before the connection is closed. -/
def step (p : UpstreamConnects) : Input → Option Result
  | .asyncConnect backendId outcomes =>
    some (p.accept fun p cb => p.asyncConnect backendId outcomes cb)
  | .asyncConnectFresh endpoint outcomes =>
    some (p.accept fun p cb => p.asyncConnectFresh endpoint outcomes cb)
  | .release endpoint stream => some ({ p with pool := p.pool.release endpoint stream }, [])
  | .connected position result hasPeer =>
    p.connects[position]?.map fun connect =>
      ({ p with connects := p.connects.eraseIdx position },
        onConnected connect.1 connect.2 hasPeer result)
  | .newStream session stream found outcomes =>
    p.sessions[session]?.bind fun opened =>
      if opened.conn then p.newStreamCb session opened stream found outcomes else none
  | .connClosed session =>
    p.sessions[session]?.bind fun opened =>
      if opened.requested = 0 then
        (QuicUpstreams.step p.toQuicUpstreams (.connClosed session)).map p.quicHalf
      else none

/-- The pool after `add_backend` for each of the backends. -/
def start (backends : List BackendEndpoint) : UpstreamConnects :=
  { toQuicUpstreams := .start backends }

/-! ## The callbacks that are held -/

/-- The callbacks of the connects and of the stream requests that are under way. -/
def waiting (p : UpstreamConnects) : List ℕ :=
  p.connects.map Prod.snd ++ p.toQuicUpstreams.waiting

/-- The callbacks that have been taken, in order. -/
def acceptedIn (effects : List Effect) : List ℕ :=
  effects.filterMap fun
    | .accepted cb => some cb
    | _ => none

/-- The callbacks that have been invoked, in order. -/
def invokedIn (effects : List Effect) : List ℕ :=
  effects.filterMap fun
    | .invoked cb _ => some cb
    | _ => none

/--
Names of TCP endpoints are resolved, a connected socket has a peer when its handler runs, and a
stream that is not there has a connection.
-/
def Benign (_ : UpstreamConnects) : Input → Prop
  | .asyncConnect _ outcomes | .asyncConnectFresh _ outcomes => outcomes.resolves = true
  | .connected _ result hasPeer => result.isOk = true → hasPeer = true
  | .newStream _ stream found _ => stream = none → found = true
  | .release _ _ | .connClosed _ => True

instance (p : UpstreamConnects) : ∀ input, Decidable (p.Benign input)
  | .asyncConnect _ outcomes | .asyncConnectFresh _ outcomes =>
    inferInstanceAs (Decidable (outcomes.resolves = true))
  | .connected _ result hasPeer => inferInstanceAs (Decidable (result.isOk = true → hasPeer = true))
  | .newStream _ stream found _ => inferInstanceAs (Decidable (stream = none → found = true))
  | .release _ _ | .connClosed _ => .isTrue trivial

/-! ## One step keeps the account -/

/-- No stream is requested of a closed connection. -/
abbrev Sound (p : UpstreamConnects) : Prop :=
  QuicUpstreams.Sound (fun session => session.requested = 0) p.toQuicUpstreams

variable {p : UpstreamConnects} {i : ℕ} {session : UpstreamSession} {endpoint : BackendEndpoint}

/-- What was owed has been invoked or is waited for, and nothing went wrong. -/
structure Settles (result : Result) (owed : List ℕ) (nextCb : ℕ) : Prop where
  account : Balanced result.1.waiting (invokedIn result.2) owed
  sound : Sound result.1
  accepts : acceptedIn result.2 = []
  numbered : result.1.nextCb = nextCb
  quiet : .threw ∉ result.2 ∧ .crashed ∉ result.2

theorem Settles.of_count {result : Result} {owed owed' : List ℕ} {nextCb : ℕ}
    (settles : Settles result owed nextCb) (same : ∀ cb, owed.count cb = owed'.count cb) :
    Settles result owed' nextCb := by
  refine ⟨?_, settles.sound, settles.accepts, settles.numbered, settles.quiet⟩
  intro cb
  exact (settles.account cb).trans (same cb)

theorem invokedIn_ofQuic (effects : List QuicUpstreams.Effect) :
    invokedIn (effects.filterMap Effect.ofQuic) = QuicUpstreams.invokedIn effects := by
  rw [invokedIn, QuicUpstreams.invokedIn, List.filterMap_filterMap]
  congr 1
  funext effect
  cases effect <;> rfl

theorem exists_of_mem_ofQuic {effects : List QuicUpstreams.Effect} {effect : Effect}
    (isEffect : effect ∈ effects.filterMap Effect.ofQuic) :
    ∃ cb result, effect = .invoked cb result := by
  rcases List.mem_filterMap.mp isEffect with ⟨quic, -, isQuic⟩
  cases quic with
  | invoked cb result =>
    cases isQuic
    exact ⟨cb, result, rfl⟩
  | connect endpoint => cases isQuic
  | asyncOpenStream session outstanding => cases isQuic

/-- The QUIC half neither throws nor takes a callback. -/
theorem settles_quicHalf {result : QuicUpstreams.Result} {owed : List ℕ}
    (keeps : QuicUpstreams.Keeps (fun session => session.requested = 0) result owed) :
    Settles (p.quicHalf result) (p.connects.map Prod.snd ++ owed) p.nextCb := by
  refine ⟨?_, keeps.sound, ?_, rfl, ?_, ?_⟩
  · intro cb
    have kept := keeps.account cb
    have invoked : invokedIn (p.quicHalf result).2 = QuicUpstreams.invokedIn result.2 :=
      invokedIn_ofQuic result.2
    have waits : (p.quicHalf result).1.waiting = p.connects.map Prod.snd ++ result.1.waiting := rfl
    rw [invoked, waits, List.count_append, List.count_append]
    omega
  · rw [acceptedIn, List.filterMap_eq_nil_iff]
    intro effect isEffect
    rcases exists_of_mem_ofQuic isEffect with ⟨cb, result, rfl⟩
    rfl
  · intro threw
    rcases exists_of_mem_ofQuic threw with ⟨cb, result, impossible⟩
    cases impossible
  · intro crashed
    rcases exists_of_mem_ofQuic crashed with ⟨cb, result, impossible⟩
    cases impossible

theorem Sound.connectFreshTo (sound : Sound p) {outcomes : Outcomes}
    (resolves : outcomes.resolves = true) (cb : ℕ) :
    Settles (p.connectFreshTo endpoint outcomes cb) (cb :: p.waiting) p.nextCb := by
  rw [UpstreamConnects.connectFreshTo, if_pos resolves]
  refine ⟨?_, sound, rfl, rfl, by simp⟩
  intro other
  have invoked : invokedIn [] = [] := rfl
  simp only [waiting, invoked, List.map_append, List.map_cons, List.map_nil, List.count_append,
    List.count_cons, List.count_nil]
  omega

/-- A callback that the QUIC half has been handed is owed as well. -/
theorem settles_quicHalf_handed {result : QuicUpstreams.Result} {cb : ℕ}
    (keeps : QuicUpstreams.Keeps (fun session => session.requested = 0) result
      (cb :: p.toQuicUpstreams.waiting)) :
    Settles (p.quicHalf result) (cb :: p.waiting) p.nextCb := by
  refine (settles_quicHalf keeps).of_count ?_
  intro other
  simp only [waiting, List.count_append, List.count_cons]
  omega

theorem Sound.asyncConnect (sound : Sound p) (backendId : Bytes) {outcomes : Outcomes}
    (resolves : outcomes.resolves = true) (cb : ℕ) :
    Settles (p.asyncConnect backendId outcomes cb) (cb :: p.waiting) p.nextCb := by
  have keeps := QuicUpstreams.Sound.asyncConnect sound backendId outcomes.connects cb
  rw [UpstreamConnects.asyncConnect]
  cases answer : (p.pool.asyncConnect backendId).2 with
  | notFound =>
    rw [QuicUpstreams.handed, answer] at keeps
    exact settles_quicHalf_handed keeps
  | reused stream endpoint =>
    rw [QuicUpstreams.handed, answer] at keeps
    exact settles_quicHalf_handed keeps
  | connecting endpoint =>
    rw [QuicUpstreams.handed, answer] at keeps
    dsimp only at keeps ⊢
    split_ifs at keeps ⊢ with quic
    · exact settles_quicHalf_handed keeps
    · -- the QUIC half has only counted the call
      have same : p.toQuicUpstreams.asyncConnect backendId outcomes.connects cb =
          ({ p.toQuicUpstreams with pool := (p.pool.asyncConnect backendId).1 }, []) := by
        rw [QuicUpstreams.asyncConnect, answer]
        exact if_neg quic
      rw [same] at keeps ⊢
      have counted : Sound
          { p with pool := (p.pool.asyncConnect backendId).1 } := keeps.sound
      exact counted.connectFreshTo resolves cb

theorem Sound.asyncConnectFresh (sound : Sound p) {outcomes : Outcomes}
    (resolves : outcomes.resolves = true) (cb : ℕ) :
    Settles (p.asyncConnectFresh endpoint outcomes cb) (cb :: p.waiting) p.nextCb := by
  unfold UpstreamConnects.asyncConnectFresh
  split_ifs with quic
  · have keeps : QuicUpstreams.Keeps _
        (p.toQuicUpstreams.asyncConnectFresh endpoint outcomes.connects cb) _ :=
      QuicUpstreams.Sound.asyncConnectFresh sound outcomes.connects cb
    rw [QuicUpstreams.handed, if_pos quic] at keeps
    exact settles_quicHalf_handed keeps
  · exact sound.connectFreshTo resolves cb

theorem settles_silent (sound : Sound p) : Settles (p, []) p.waiting p.nextCb :=
  ⟨fun _ => rfl, sound, rfl, rfl, by simp⟩

theorem onConnected_of_hasPeer {result : Except ErrorCode TransportStream} {hasPeer : Bool}
    (benign : result.isOk = true → hasPeer = true) (target : BackendEndpoint) (cb : ℕ) :
    onConnected target cb hasPeer result =
      [.invoked cb (result.map fun stream => (stream, target, false))] := by
  cases result with
  | error ec => rfl
  | ok stream =>
    rw [onConnected, if_pos (benign rfl)]
    rfl

theorem Sound.connected (sound : Sound p) {position : ℕ} {connect : BackendEndpoint × ℕ}
    (isConnect : p.connects[position]? = some connect)
    (result : Except ErrorCode (TransportStream × BackendEndpoint × Bool)) :
    Settles ({ p with connects := p.connects.eraseIdx position }, [.invoked connect.2 result])
      p.waiting p.nextCb := by
  refine ⟨?_, sound, rfl, rfl, by simp⟩
  intro cb
  have split : (p.connects.map Prod.snd).count cb =
      ((p.connects.eraseIdx position).map Prod.snd).count cb + [connect.2].count cb := by
    have isPerm := (List.getElem_cons_eraseIdx_perm
      (List.getElem?_eq_some_iff.mp isConnect).1).map Prod.snd
    have counts := isPerm.count_eq cb
    rw [(List.getElem?_eq_some_iff.mp isConnect).2, List.map_cons, List.count_cons] at counts
    rw [← counts, List.count_cons, List.count_nil, Nat.zero_add]
  have invoked : invokedIn [.invoked connect.2 result] = [connect.2] := rfl
  simp only [waiting, invoked, List.count_append]
  omega

/-- A step of the QUIC half that is handed no callback. -/
theorem Sound.quicStep (sound : Sound p) {input : QuicUpstreams.Input} {quic : QuicUpstreams.Result}
    (handsNone : p.toQuicUpstreams.handed input = [])
    (atClose : ∀ i session, input = .connClosed i → p.sessions[i]? = some session →
      session.requested = 0) (taken : QuicUpstreams.step p.toQuicUpstreams input = some quic) :
    Settles (p.quicHalf quic) p.waiting p.nextCb := by
  have keeps := QuicUpstreams.Sound.step sound atClose taken
  rw [handsNone] at keeps
  exact settles_quicHalf keeps

theorem newStreamCb_of_found {stream : Option TransportStream} {found : Bool}
    (benign : stream = none → found = true) (outcomes : Outcomes) :
    p.newStreamCb i session stream found outcomes =
      (QuicUpstreams.step p.toQuicUpstreams (.newStream i stream outcomes.connects)).map
        p.quicHalf := by
  have known : ¬(stream.isNone && !found) = true := by
    cases stream with
    | none => simp [benign rfl]
    | some stream => simp
  rw [newStreamCb, if_neg known]

/-! ## The account of a run -/

/-- The callbacks that have been taken are those that wait and those that have been invoked. -/
structure Account (trace : List Effect) (p : UpstreamConnects) : Prop where
  sound : Sound p
  numbered : acceptedIn trace = List.range p.nextCb
  balance : Balanced p.waiting (invokedIn trace) (acceptedIn trace)
  quiet : .threw ∉ trace ∧ .crashed ∉ trace

theorem acceptedIn_append (first second : List Effect) :
    acceptedIn (first ++ second) = acceptedIn first ++ acceptedIn second :=
  List.filterMap_append

theorem invokedIn_append (first second : List Effect) :
    invokedIn (first ++ second) = invokedIn first ++ invokedIn second :=
  List.filterMap_append

variable {trace : List Effect}

theorem Account.settle (holds : Account trace p) {result : Result}
    (settles : Settles result p.waiting p.nextCb) : Account (trace ++ result.2) result.1 := by
  refine ⟨settles.sound, ?_, ?_, ?_⟩
  · rw [acceptedIn_append, settles.accepts, List.append_nil, settles.numbered, holds.numbered]
  · rw [acceptedIn_append, invokedIn_append, settles.accepts, List.append_nil]
    exact holds.balance.settle settles.account
  · simp [holds.quiet, settles.quiet]

theorem Account.accept (holds : Account trace p) {method : UpstreamConnects → ℕ → Result}
    (settles : ∀ {p}, Sound p → ∀ cb, Settles (method p cb) (cb :: p.waiting) p.nextCb) :
    Account (trace ++ (p.accept method).2) (p.accept method).1 := by
  have renumbered : Sound { p with nextCb := p.nextCb + 1 } := holds.sound
  have settles := settles renumbered p.nextCb
  have accepts : acceptedIn (p.accept method).2 = [p.nextCb] := by
    have first : acceptedIn (p.accept method).2 = [p.nextCb] ++ acceptedIn
        (method { p with nextCb := p.nextCb + 1 } p.nextCb).2 := rfl
    rw [first, settles.accepts]
    rfl
  refine ⟨settles.sound, ?_, ?_, ?_⟩
  · have numbered : (p.accept method).1.nextCb = p.nextCb + 1 := settles.numbered
    rw [acceptedIn_append, accepts, holds.numbered, numbered, List.range_succ]
  · rw [acceptedIn_append, invokedIn_append, accepts]
    exact holds.balance.accept settles.account
  · simp [UpstreamConnects.accept, holds.quiet, settles.quiet]

theorem Account.step (holds : Account trace p) {input : Input} {result : Result}
    (benign : p.Benign input) (taken : p.step input = some result) :
    Account (trace ++ result.2) result.1 := by
  cases input with
  | asyncConnect backendId outcomes =>
    cases taken
    exact holds.accept fun sound cb => sound.asyncConnect backendId benign cb
  | asyncConnectFresh endpoint outcomes =>
    cases taken
    exact holds.accept fun sound cb => sound.asyncConnectFresh benign cb
  | release endpoint stream =>
    cases taken
    have released : Sound { p with pool := p.pool.release endpoint stream } :=
      QuicUpstreams.Sound.setPool holds.sound _
    exact holds.settle (settles_silent released)
  | connected position result hasPeer =>
    rcases Option.map_eq_some_iff.mp taken with ⟨connect, isConnect, rfl⟩
    rw [onConnected_of_hasPeer benign]
    exact holds.settle (holds.sound.connected isConnect _)
  | newStream i stream found outcomes =>
    rcases Option.bind_eq_some_iff.mp taken with ⟨session, isSession, taken⟩
    rw [Option.ite_none_right_eq_some, newStreamCb_of_found benign] at taken
    rcases Option.map_eq_some_iff.mp taken.2 with ⟨quic, stepped, rfl⟩
    refine holds.settle (holds.sound.quicStep rfl ?_ stepped)
    intro j session' impossible
    cases impossible
  | connClosed i =>
    rcases Option.bind_eq_some_iff.mp taken with ⟨session, isSession, taken⟩
    rw [Option.ite_none_right_eq_some] at taken
    rcases taken with ⟨unasked, taken⟩
    rcases Option.map_eq_some_iff.mp taken with ⟨quic, stepped, rfl⟩
    refine holds.settle (holds.sound.quicStep rfl ?_ stepped)
    rintro j session' ⟨⟩ isSession'
    rw [isSession, Option.some.injEq] at isSession'
    rw [← isSession']
    exact unasked

theorem account_start (backends : List BackendEndpoint) : Account [] (start backends) := by
  refine ⟨QuicUpstreams.sound_start backends, rfl, ?_, nofun, nofun⟩
  intro cb
  rfl

theorem mem_acceptedIn {cb : ℕ} : cb ∈ acceptedIn trace ↔ .accepted cb ∈ trace := by
  rw [acceptedIn, List.mem_filterMap]
  constructor
  · rintro ⟨effect, isEffect, isCb⟩
    cases effect with
    | accepted other =>
      cases isCb
      exact isEffect
    | invoked other result => cases isCb
    | threw => cases isCb
    | crashed => cases isCb
  · intro accepted
    exact ⟨_, accepted, rfl⟩

/--
Whatever the backends are, and in whatever order the pool is called, TCP connects complete,
lsquic reports streams and connections are closed: as long as the names of TCP endpoints are
resolved, connected sockets have a peer when their handler runs and the connection of a missing
stream is found, no exception leaves the pool and no null pointer is followed; only callbacks
that were handed in are invoked, each at most once, with an error or a stream; and one that has
not been invoked belongs to a TCP connect or to a stream request of an open connection that has
not been completed.
-/
theorem connect_callbacks_once {backends : List BackendEndpoint}
    (runs : Runs step Benign (start backends) trace p) :
    (.threw ∉ trace ∧ .crashed ∉ trace) ∧
      (∀ cb ∈ invokedIn trace, .accepted cb ∈ trace) ∧
      (∀ cb, .accepted cb ∈ trace →
        (invokedIn trace).count cb = 1 ∨ (invokedIn trace).count cb = 0 ∧ cb ∈ p.waiting) ∧
      ∀ session ∈ p.sessions, session.requested ≠ 0 → session.conn = true := by
  -- callbacks are numbered as they are handed in, so counting them is enough
  have holds : Account trace p :=
    Runs.invariant (account_start backends)
      (fun holds benign taken => holds.step benign taken) runs
  refine ⟨holds.quiet, ?_, ?_, ?_⟩
  · intro cb invoked
    exact mem_acceptedIn.mp (holds.balance.mem_taken invoked)
  · intro cb accepted
    refine holds.balance.once ?_ (mem_acceptedIn.mpr accepted)
    rw [holds.numbered]
    exact List.nodup_range
  · intro session isSession asked
    by_contra isClosed
    exact asked (holds.sound.closed session isSession (by simpa using isClosed))

/-- All names are resolved, and all connections are started. -/
def fortunate : Outcomes := { resolves := true, connects := true }

/-- A TCP connect fails; a QUIC connection is used twice and dies under the third request. -/
def staleConnection : List Input :=
  [.asyncConnect (ascii "t") fortunate, .asyncConnect (ascii "q") fortunate,
    .connected 0 (.error .connectionReset) false,
    .newStream 0 (some { id := 0, protocol := .QUIC }) true fortunate,
    .asyncConnect (ascii "q") fortunate,
    .newStream 0 (some { id := 1, protocol := .QUIC }) true fortunate,
    .asyncConnect (ascii "q") fortunate,
    .newStream 0 none true fortunate, .connClosed 0,
    .newStream 1 (some { id := 2, protocol := .QUIC }) true fortunate]

theorem connect_callbacks_once_staleConnection :
    ∃ trace p, Runs step Benign (start QuicUpstreams.twoBackends) trace p ∧
      acceptedIn trace = [0, 1, 2, 3] ∧ p.waiting = [] ∧
      ∀ cb, .accepted cb ∈ trace → (invokedIn trace).count cb = 1 := by
  have reached : (run step (fun p input => decide (p.Benign input)) (start QuicUpstreams.twoBackends)
      staleConnection).any (fun last =>
        decide (acceptedIn last.2 = [0, 1, 2, 3] ∧ last.1.waiting = [])) = true := by
    decide +kernel
  rcases exists_runs_of_run reached with ⟨trace, p, runs, accepted, none⟩
  refine ⟨trace, p, runs, accepted, none, ?_⟩
  intro cb isAccepted
  rcases (connect_callbacks_once runs).2.2.1 cb isAccepted with once | ⟨-, isWaiting⟩
  · exact once
  · rw [none] at isWaiting
    cases isWaiting

/-- The name of a TCP backend is not resolved. -/
def unresolved : List Input := [.asyncConnect (ascii "t") { resolves := false, connects := true }]

/-- A TCP backend resets the connection before the handler of the connect runs. -/
def resetBeforeHandler : List Input :=
  [.asyncConnect (ascii "t") fortunate, .connected 0 (.ok { id := 0, protocol := .TCP }) false]

/-- The handshake of a QUIC connection fails while its first stream is requested. -/
def handshakeFails : List Input :=
  [.asyncConnect (ascii "q") fortunate, .newStream 0 none false fortunate, .connClosed 0]

/-- At the end of these inputs the first callback is neither held nor has it been invoked. -/
def LosesFirst (inputs : List Input) (what : Effect) : Prop :=
  ∃ last, run step (fun _ _ => true) (start QuicUpstreams.twoBackends) inputs = some last ∧
    .accepted 0 ∈ last.2 ∧ what ∈ last.2 ∧ (invokedIn last.2).count 0 = 0 ∧ last.1.waiting = []

theorem losesFirst_of_any {inputs : List Input} {what : Effect}
    (ran : (run step (fun _ _ => true) (start QuicUpstreams.twoBackends) inputs).any (fun last =>
      decide (.accepted 0 ∈ last.2 ∧ what ∈ last.2 ∧ (invokedIn last.2).count 0 = 0 ∧
        last.1.waiting = [])) = true) :
    LosesFirst inputs what := by
  rcases (Option.any_eq_true _ _).mp ran with ⟨last, isLast, loses⟩
  exact ⟨last, isLast, of_decide_eq_true loses⟩

/-- A callback is lost with either exception, and another one with a null pointer. -/
theorem connect_callbacks_lost :
    LosesFirst unresolved .threw ∧ LosesFirst resetBeforeHandler .threw ∧
      LosesFirst handshakeFails .crashed := by
  refine ⟨?_, ?_, ?_⟩
  · exact losesFirst_of_any (by decide +kernel)
  · exact losesFirst_of_any (by decide +kernel)
  · exact losesFirst_of_any (by decide +kernel)

end UpstreamConnects

end ReverseProxy
