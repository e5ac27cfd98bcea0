import ReverseProxy.Proxy.PoolHygiene

/-!
# Who has a TCP connection

Idle connections of `UpstreamPool` (`proxy/upstream_pool.cpp`) and the relays that borrow
them (`proxy/relay_session.cpp`), over runs that are recorded step by step.  The pool files a
connection under the endpoint that the relay reports with it, so that an idle connection is
where it belongs rests on the relays keeping the endpoint of their backend stream.
-/

namespace ReverseProxy

open Machine

namespace Proxy

open Text RelaySession UpstreamPool

variable {ι : Type}

/-- A transition of the proxy. -/
abbrev Event (ι : Type) := Machine.Transition (Proxy ι) (ι × Input) (ι × Action)

/-- A relay is called back with a connection. -/
def Delivers (t : Event ι) (i : ι) (stream : TransportStream) (endpoint : BackendEndpoint)
    (fromPool : Bool) : Prop :=
  ∃ target next, t.input =
    (i, .complete (.connect target next) (.connected (.ok (stream, endpoint, fromPool))))

/-- A relay returns the connection. -/
def Releases (t : Event ι) (stream : TransportStream) : Prop :=
  ∃ i endpoint, (i, .release endpoint stream) ∈ t.actions

/-- A relay calls `async_connect`, and it takes the connection out of an idle queue. -/
structure TakesOut (t : Event ι) (i : ι) (stream : TransportStream)
    (endpoint : BackendEndpoint) : Prop where
  calls : ∃ backendId, (i, .connect (.group backendId)) ∈ t.actions ∧
    (t.source.pool.asyncConnect backendId).2 = .reused stream endpoint
  wasIdle : stream ∈ t.source.pool.streams
  removed : stream ∉ t.target.pool.streams

/-- A TCP connect to this address has completed with the stream. -/
def Connected (log : List (Event ι)) (stream : TransportStream) (endpoint : BackendEndpoint) :
    Prop :=
  ∃ t ∈ log, ∃ i target, Delivers t i stream target false ∧ target.host = endpoint.host ∧
    target.port = endpoint.port

/-- Who has the connections. -/
structure PoolOwnership (log : List (Event ι)) (proxy : Proxy ι) : Prop where
  /-- An idle connection is in one queue, once. -/
  once : ∀ stream, proxy.pool.streams.count stream ≤ 1
  /-- No relay has it, and it is promised to none. -/
  unheld : ∀ stream ∈ proxy.pool.streams, ∀ i, ¬(proxy.relays i).Reaches stream ∧
    ∀ checkout ∈ proxy.checkouts i, stream ∉ checkout.streams
  address : ∀ entry ∈ proxy.pool.endpoints, ∀ stream ∈ entry.idle, Connected log stream entry.be
  bounded : ∀ entry ∈ proxy.pool.endpoints, entry.idle.length ≤ maxIdlePerEndpoint
  fromPool : ∀ before t after, log = before ++ t :: after →
    ∀ i stream endpoint fromPool, Delivers t i stream endpoint fromPool →
      endpoint.protocol ≠ .QUIC → (fromPool = true ↔ ∃ t' ∈ before, TakesOut t' i stream endpoint)
  /-- A connection is handed over again only after it has been released. -/
  notTwice : ∀ before first middle second after, log = before ++ first :: middle ++ second :: after →
    ∀ stream, (∃ i endpoint fromPool, Delivers first i stream endpoint fromPool) →
      (∃ i endpoint fromPool, Delivers second i stream endpoint fromPool) →
        ∃ t ∈ first :: middle, Releases t stream

/-! ## What the pool does in a step -/

/-- What a step of a relay that has this stream and knows this endpoint does to the pool. -/
inductive Serves (i : ι) (held : Option TransportStream) (endpoint : BackendEndpoint)
    (actions : List Action) (before next : Proxy ι) : Prop where
  | alone (samePool : next.pool = before.pool)
      (promises : ∀ j stream endpoint, next.checkouts j = some (.reused stream endpoint) →
        before.checkouts j = some (.reused stream endpoint))
  | connects (backendId : Bytes) (isAction : .connect (.group backendId) ∈ actions)
      (isPool : next.pool = (before.pool.asyncConnect backendId).1)
      (promises : ∀ j stream endpoint, next.checkouts j = some (.reused stream endpoint) →
        before.checkouts j = some (.reused stream endpoint) ∨
          j = i ∧ (before.pool.asyncConnect backendId).2 = .reused stream endpoint)
  | releases (stream : TransportStream) (isHeld : held = some stream)
      (isAction : .release endpoint stream ∈ actions)
      (isPool : next.pool = before.pool.release endpoint stream)
      (promises : ∀ j stream endpoint, next.checkouts j = some (.reused stream endpoint) →
        before.checkouts j = some (.reused stream endpoint))

section Steps

variable [DecidableEq ι] {proxy : Proxy ι} {after : RelaySession} {held : Option TransportStream}
  {endpoint : BackendEndpoint}

theorem serves_of_asks (asks : Asks held endpoint after) (i : ι) (proxy : Proxy ι) :
    Serves i held endpoint after.out proxy (after.out.foldl (serve i) proxy) := by
  cases asks with
  | nothing quiet =>
    rw [foldl_serve, quiet]
    exact .alone rfl fun _ _ _ => id
  | connects target asks =>
    rw [foldl_serve, asks]
    have isAction : .connect target ∈ calls after.out := by simp [asks]
    cases target with
    | group backendId =>
      refine .connects backendId (List.mem_filter.mp isAction).1 rfl ?_
      intro j stream endpoint isPromised
      exact checkouts_update isPromised
    | fresh target =>
      refine .alone rfl ?_
      intro j stream endpoint isPromised
      rcases checkouts_update isPromised with isOld | ⟨-, isNew⟩
      · exact isOld
      · cases isNew
  | releases stream before later isHeld asks quiet streamless gone =>
    rw [foldl_serve, calls_of_release asks quiet streamless]
    exact .releases stream isHeld (by simp [asks]) rfl fun _ _ _ => id

end Steps

/-! ## The account of a run -/

/-- The stream has been handed to a relay and not been released since. -/
def Out (stream : TransportStream) (log : List (Event ι)) : Prop :=
  ∃ before t after, log = before ++ t :: after ∧
    (∃ i endpoint fromPool, Delivers t i stream endpoint fromPool) ∧
      ∀ t' ∈ t :: after, ¬Releases t' stream

/-- The invariant of the proxy. -/
structure Accounted (log : List (Event ι)) (proxy : Proxy ι) : Prop where
  control : ∀ i, (proxy.relays i).Control
  placed : ∀ stream, ∃ owner, Placed stream proxy owner
  out : ∀ stream, Out stream log → ∃ i, Placed stream proxy (some (.relay i))
  bounded : ∀ entry ∈ proxy.pool.endpoints, entry.idle.length ≤ maxIdlePerEndpoint
  address : ∀ entry ∈ proxy.pool.endpoints, ∀ stream ∈ entry.idle, Connected log stream entry.be
  promised : ∀ i stream endpoint, proxy.checkouts i = some (.reused stream endpoint) →
    Connected log stream endpoint ∧ ∃ t ∈ log, TakesOut t i stream endpoint
  held : ∀ i stream endpoint, (proxy.relays i).Keeps stream endpoint → endpoint.protocol ≠ .QUIC →
    Connected log stream endpoint
  opened : ∀ t ∈ log, ∀ stream ∈ t.source.pool.streams, stream ∈ proxy.opened

section Account

variable {log : List (Event ι)} {proxy next : Proxy ι} {stream : TransportStream}
  {endpoint : BackendEndpoint} {i : ι} {input : Input} {after : RelaySession}

theorem Connected.mono (connected : Connected log stream endpoint) (later : List (Event ι)) :
    Connected (log ++ later) stream endpoint := by
  rcases connected with ⟨t, isEvent, facts⟩
  exact ⟨t, List.mem_append_left _ isEvent, facts⟩

theorem Connected.of_sameAddress (connected : Connected log stream endpoint)
    {other : BackendEndpoint} (sameHost : other.host = endpoint.host)
    (samePort : other.port = endpoint.port) : Connected log stream other := by
  rcases connected with ⟨t, isEvent, i, target, delivers, isHost, isPort⟩
  exact ⟨t, isEvent, i, target, delivers, isHost.trans sameHost.symm, isPort.trans samePort.symm⟩

theorem Placed.opened_of_idle {owner : Option (Owner ι)} (placed : Placed stream proxy owner)
    (isIdle : stream ∈ proxy.pool.streams) : stream ∈ proxy.opened := by
  apply placed.known
  rw [placed.shelved isIdle]
  simp

theorem mem_streams {entry : EndpointEntry} {pool : UpstreamPool} (isEntry : entry ∈ pool.endpoints)
    (isIdle : stream ∈ entry.idle) : stream ∈ pool.streams :=
  List.mem_flatMap.mpr ⟨entry, isEntry, isIdle⟩

variable [DecidableEq ι]

theorem pool_advance : (proxy.advance i input after).pool = proxy.pool := by
  rw [advance, pool_collect]

theorem promised_advance {j : ι} {checkout : Checkout}
    (isPromised : (proxy.advance i input after).checkouts j = some checkout) :
    proxy.checkouts j = some checkout :=
  checkouts_collect isPromised

/-- The pool's side of a step, seen from the state before it. -/
theorem serves_of_outcome (outcome : (proxy.relays i).Outcome input after) :
    Serves i (proxy.relays i).backend (proxy.relays i).backendEndpoint after.out proxy
      (after.out.foldl (serve i) (proxy.advance i input { after with out := [] })) := by
  cases serves_of_asks outcome.asks i (proxy.advance i input { after with out := [] }) with
  | alone samePool promises =>
    refine .alone (samePool.trans pool_advance) ?_
    intro j stream endpoint isPromised
    exact promised_advance (promises j stream endpoint isPromised)
  | connects backendId isAction isPool promises =>
    rw [pool_advance] at isPool promises
    refine .connects backendId isAction isPool ?_
    intro j stream endpoint isPromised
    rcases promises j stream endpoint isPromised with old | new
    · exact .inl (promised_advance old)
    · exact .inr new
  | releases stream isHeld isAction isPool promises =>
    rw [pool_advance] at isPool
    refine .releases stream isHeld isAction isPool ?_
    intro j stream endpoint isPromised
    exact promised_advance (promises j stream endpoint isPromised)

/-! ## One step keeps the account -/

variable {actions : List Action} {t : Event ι}

omit [DecidableEq ι] in
theorem Serves.bounded {held : Option TransportStream}
    (serves : Serves i held endpoint actions proxy next)
    (bounded : ∀ entry ∈ proxy.pool.endpoints, entry.idle.length ≤ maxIdlePerEndpoint) :
    ∀ entry ∈ next.pool.endpoints, entry.idle.length ≤ maxIdlePerEndpoint := by
  intro entry isEntry
  cases serves with
  | alone samePool promises =>
    rw [samePool] at isEntry
    exact bounded entry isEntry
  | connects backendId isAction isPool promises =>
    rw [isPool] at isEntry
    rcases exists_of_mem_asyncConnect isEntry with ⟨old, isOld, -, fewer⟩
    exact fewer.length_le.trans (bounded old isOld)
  | releases stream isHeld isAction isPool promises =>
    rw [isPool] at isEntry
    rcases exists_of_mem_release isEntry with ⟨old, isOld, -, same | ⟨-, joins⟩⟩
    · rw [same]
      exact bounded old isOld
    · rw [joins.isIdle, List.length_append, List.length_singleton]
      exact joins.room

omit [DecidableEq ι] in
/-- A connection is filed where it was connected to, whoever releases it. -/
theorem Serves.address (account : Accounted log proxy)
    (serves : Serves i (proxy.relays i).backend (proxy.relays i).backendEndpoint actions proxy next) :
    ∀ entry ∈ next.pool.endpoints, ∀ stream ∈ entry.idle, Connected log stream entry.be := by
  intro entry isEntry stream isIdle
  cases serves with
  | alone samePool promises =>
    rw [samePool] at isEntry
    exact account.address entry isEntry stream isIdle
  | connects backendId isAction isPool promises =>
    rw [isPool] at isEntry
    rcases exists_of_mem_asyncConnect isEntry with ⟨old, isOld, sameBe, fewer⟩
    rw [sameBe]
    exact account.address old isOld stream (fewer.subset isIdle)
  | releases released isHeld isAction isPool promises =>
    rw [isPool] at isEntry
    rcases exists_of_mem_release isEntry with ⟨old, isOld, sameBe, same | ⟨overTcp, joins⟩⟩
    · rw [same] at isIdle
      rw [sameBe]
      exact account.address old isOld stream isIdle
    · rw [joins.isIdle, List.mem_append, List.mem_singleton] at isIdle
      rw [sameBe]
      rcases isIdle with wasIdle | rfl
      · exact account.address old isOld stream wasIdle
      · have connected := account.held i stream _ ⟨isHeld, rfl⟩ overTcp
        exact connected.of_sameAddress joins.sameHost joins.samePort

omit [DecidableEq ι] in
/-- A promise is kept with a connection that was idle, and is idle no longer. -/
theorem Serves.promised (account : Accounted log proxy) {held : Option TransportStream}
    (serves : Serves i held endpoint actions proxy next)
    (isEvent : t = ⟨proxy, (i, input), actions.map fun action => (i, action), next⟩) {j : ι}
    {promised : BackendEndpoint} (isPromised : next.checkouts j = some (.reused stream promised)) :
    Connected log stream promised ∧ ∃ t' ∈ log ++ [t], TakesOut t' j stream promised := by
  have old : proxy.checkouts j = some (.reused stream promised) →
      Connected log stream promised ∧ ∃ t' ∈ log ++ [t], TakesOut t' j stream promised := by
    intro wasPromised
    rcases account.promised j stream promised wasPromised with ⟨connected, t', isEarlier, takesOut⟩
    exact ⟨connected, t', List.mem_append_left _ isEarlier, takesOut⟩
  cases serves with
  | alone samePool promises => exact old (promises j stream promised isPromised)
  | releases released isHeld isAction isPool promises =>
    exact old (promises j stream promised isPromised)
  | connects backendId isAction isPool promises =>
    rcases promises j stream promised isPromised with wasPromised | ⟨rfl, reused⟩
    · exact old wasPromised
    · rcases exists_of_reused reused with ⟨entry, isEntry, rfl, isIdle, -⟩
      refine ⟨account.address entry isEntry stream isIdle, t, by simp, ?_⟩
      have wasIdle := mem_streams isEntry isIdle
      rcases account.placed stream with ⟨owner, placed⟩
      have moved := proxy.pool.count_asyncConnect backendId stream
      have once := placed.once
      rw [reused] at moved
      simp only [Checkout.streams, List.count_singleton_self] at moved
      subst isEvent
      refine ⟨⟨backendId, ?_, reused⟩, wasIdle, ?_⟩
      · exact List.mem_map.mpr ⟨_, isAction, rfl⟩
      · intro stillIdle
        have remaining := List.count_pos_iff.mpr stillIdle
        rw [isPool] at remaining
        omega

omit [DecidableEq ι] in
theorem Accounted.keeps (account : Accounted log proxy)
    (outcome : (proxy.relays i).Outcome input after) (answers : proxy.Answers i input = true)
    (isInput : t.input = (i, input)) (keeps : after.Keeps stream endpoint)
    (overTcp : endpoint.protocol ≠ .QUIC) : Connected (log ++ [t]) stream endpoint := by
  rcases outcome.keeps keeps with kept | ⟨op, fromPool, rfl⟩
  · exact (account.held i stream endpoint kept overTcp).mono [t]
  · have brought : stream ∈ Input.streams
        (.complete op (.connected (.ok (stream, endpoint, fromPool)))) := by
      simp [Input.streams, Completion.streams]
    rcases connection_of_outcome outcome brought with ⟨target, next, _, _, isConnect⟩
    cases isConnect
    rcases delivered_cases answers with ⟨promised, -⟩ | ⟨-, onlyQuic⟩
    · exact (account.promised i stream endpoint promised).1.mono [t]
    · cases fromPool with
      | true => exact absurd (onlyQuic rfl) overTcp
      | false => exact ⟨t, by simp, i, endpoint, ⟨target, next, isInput⟩, rfl, rfl⟩

omit [DecidableEq ι] in
theorem out_of_snoc (out : Out stream (log ++ [t])) :
    ¬Releases t stream ∧
      (Out stream log ∨ ∃ i endpoint fromPool, Delivers t i stream endpoint fromPool) := by
  rcases out with ⟨before, delivery, later, split, delivers, unreleased⟩
  rcases List.eq_nil_or_concat later with rfl | ⟨middle, last, rfl⟩
  · rcases List.append_inj' split rfl with ⟨rfl, isLast⟩
    simp only [List.cons.injEq, and_true] at isLast
    subst isLast
    exact ⟨unreleased t (by simp), .inr delivers⟩
  · rw [List.concat_eq_append, ← List.cons_append, ← List.append_assoc] at split
    rcases List.append_inj' split rfl with ⟨rfl, isLast⟩
    simp only [List.cons.injEq, and_true] at isLast
    subst isLast
    refine ⟨unreleased t (by simp), .inl ⟨before, delivery, middle, rfl, delivers, ?_⟩⟩
    intro t' isEarlier
    apply unreleased t'
    rw [List.concat_eq_append, ← List.cons_append]
    exact List.mem_append_left _ isEarlier

/-- A stream that a relay has been given is not in the pool before it is released. -/
theorem Accounted.out_step (account : Accounted log proxy)
    (outcome : (proxy.relays i).Outcome input after) (answers : proxy.Answers i input = true)
    (isEvent : t = ⟨proxy, (i, input), after.out.map fun action => (i, action),
      after.out.foldl (serve i) (proxy.advance i input { after with out := [] })⟩)
    (out : Out stream (log ++ [t])) :
    ∃ k, Placed stream (after.out.foldl (serve i) (proxy.advance i input { after with out := [] }))
      (some (.relay k)) := by
  rcases out_of_snoc out with ⟨unreleased, since⟩
  have advanced : ∃ k, Placed stream (proxy.advance i input { after with out := [] })
      (some (.relay k)) ∧ ((proxy.relays i).backend = some stream → k = i) := by
    by_cases brought : stream ∈ input.streams
    · rcases account.placed stream with ⟨owner, placed⟩
      exact ⟨i, placed.advance_handed outcome answers brought, fun _ => rfl⟩
    · rcases since with earlier | ⟨j, endpoint, fromPool, target, next, isInput⟩
      · rcases account.out stream earlier with ⟨k, placed⟩
        refine ⟨k, placed.advance_other outcome brought, ?_⟩
        intro isBackend
        have isOwner := placed.reached i (.inl isBackend)
        simpa using isOwner
      · subst isEvent
        cases isInput
        simp [Input.streams, Completion.streams] at brought
  rcases advanced with ⟨k, placed, isOwner⟩
  have isRelay : (proxy.advance i input { after with out := [] }).relays i =
      { after with out := [] } := by
    simp [advance]
  have owns : (proxy.relays i).backend = some stream → some (Owner.relay k) = some (.relay i) := by
    intro isBackend
    rw [isOwner isBackend]
  rcases placed.serve_all outcome.deals isRelay owns with ⟨owner', served, moves⟩
  cases moves with
  | stays => exact ⟨k, served⟩
  | released endpoint before later asks streamless =>
    apply absurd _ unreleased
    subst isEvent
    exact ⟨i, endpoint, List.mem_map.mpr ⟨_, by simp [asks], rfl⟩⟩

theorem Accounted.step (account : Accounted log proxy) {event : ι × Input}
    {actions : List (ι × Action)} (taken : proxy.step event = some (next, actions)) :
    Accounted (log ++ [⟨proxy, event, actions, next⟩]) next := by
  rcases event with ⟨i, input⟩
  rcases exists_outcome_of_step account.control taken with
    ⟨after, outcome, controlled, answers, rfl, rfl⟩
  have serves := serves_of_outcome outcome
  refine ⟨controlled, ?_, ?_, serves.bounded account.bounded, ?_, ?_, ?_, ?_⟩
  · intro stream
    rcases account.placed stream with ⟨owner, placed⟩
    rcases placed.advance outcome answers with ⟨owner', advanced, isOwner⟩
    have isRelay : (proxy.advance i input { after with out := [] }).relays i =
        { after with out := [] } := by
      simp [advance]
    rcases advanced.serve_all outcome.deals isRelay (fun isBackend => isOwner (.inl isBackend)) with
      ⟨owner'', served, -⟩
    exact ⟨owner'', served⟩
  · intro stream out
    exact account.out_step outcome answers rfl out
  · intro entry isEntry stream isIdle
    exact (serves.address account entry isEntry stream isIdle).mono _
  · intro j stream endpoint isPromised
    rcases serves.promised account rfl isPromised with ⟨connected, takesOut⟩
    exact ⟨connected.mono _, takesOut⟩
  · intro j stream endpoint keeps overTcp
    rw [relays_foldl_serve] at keeps
    by_cases same : j = i
    · subst same
      simp only [Proxy.advance, Function.update_self] at keeps
      exact account.keeps outcome answers rfl keeps overTcp
    · simp only [Proxy.advance, Function.update_of_ne same] at keeps
      exact (account.held j stream endpoint keeps overTcp).mono _
  · intro t' isEvent stream wasIdle
    rw [opened_foldl_serve]
    apply List.mem_append_right
    rcases List.mem_append.mp isEvent with earlier | last
    · exact account.opened t' earlier stream wasIdle
    · rw [List.mem_singleton.mp last] at wasIdle
      rcases account.placed stream with ⟨owner, placed⟩
      exact placed.opened_of_idle wasIdle

omit [DecidableEq ι] in
theorem accounted_start (sessions : ι → Codec × List Router.Rule × ℕ)
    (endpoints : List BackendEndpoint) : Accounted [] (start sessions endpoints) := by
  have isEmpty : ∀ entry ∈ (start sessions endpoints).pool.endpoints, entry.idle = [] := by
    intro entry isEntry
    rcases List.mem_map.mp isEntry with ⟨be, -, rfl⟩
    rfl
  refine ⟨fun i => control_start _ _ _, fun stream => ⟨none, placed_start stream sessions endpoints⟩,
    ?_, ?_, ?_, ?_, ?_, ?_⟩
  · rintro stream ⟨before, t, later, split, -⟩
    simp at split
  · intro entry isEntry
    simp [isEmpty entry isEntry]
  · intro entry isEntry stream isIdle
    simp [isEmpty entry isEntry] at isIdle
  · intro i stream endpoint isPromised
    cases isPromised
  · intro i stream endpoint keeps _
    have reaches := (placed_start stream sessions endpoints).reached i (.inl keeps.1)
    cases reaches
  · intro t isEvent
    cases isEvent

theorem accounted_of_runs {sessions : ι → Codec × List Router.Rule × ℕ}
    {endpoints : List BackendEndpoint}
    (runs : Runs (logged step) anyInput (start sessions endpoints) log proxy) :
    Accounted log proxy := by
  apply Runs.invariant ?_ ?_ runs
  · exact accounted_start sessions endpoints
  · intro log proxy event next new account _ logged
    rcases logged_eq_some_iff.mp logged with ⟨actions, taken, rfl⟩
    exact account.step taken

theorem Delivers.answers {target : Proxy ι} {actions : List (ι × Action)} {event : ι × Input}
    {fromPool : Bool} (taken : proxy.step event = some (target, actions))
    (delivers : Delivers ⟨proxy, event, actions, target⟩ i stream endpoint fromPool) :
    proxy.checkouts i = some (.reused stream endpoint) ∧ fromPool = true ∨
      stream ∉ proxy.opened ∧ (fromPool = true → endpoint.protocol = .QUIC) := by
  rcases delivers with ⟨connect, next, isInput⟩
  dsimp only at isInput
  rw [isInput, Proxy.step] at taken
  split_ifs at taken with answers
  exact delivered_cases answers

/--
In every run of any number of relays over one pool: an idle connection is in one queue, once,
and no relay has it; it was connected to the address of the entry; no queue holds more than it
may; a TCP connection is reported to come from the pool exactly if `async_connect` has taken it
from an idle queue; and a connection is not handed over again before it is released.
-/
theorem pool_ownership {sessions : ι → Codec × List Router.Rule × ℕ}
    {endpoints : List BackendEndpoint} {log : List (Event ι)} {proxy : Proxy ι}
    (runs : Runs (logged step) anyInput (start sessions endpoints) log proxy) :
    PoolOwnership log proxy := by
  have account := accounted_of_runs runs
  refine ⟨?_, ?_, account.address, account.bounded, ?_, ?_⟩
  · intro stream
    rcases account.placed stream with ⟨owner, placed⟩
    exact placed.once
  · intro stream isIdle i
    rcases account.placed stream with ⟨owner, placed⟩
    have onShelf := placed.shelved isIdle
    constructor
    · intro reaches
      have isRelay := placed.reached i reaches
      simp [onShelf] at isRelay
    · intro checkout isPromised inCheckout
      have isCounter := placed.promised i checkout isPromised inCheckout
      simp [onShelf] at isCounter
  · intro before t after split i stream endpoint fromPool delivers overTcp
    rcases runs.before_logged split with ⟨earlier, taken⟩
    have account := accounted_of_runs earlier
    have answers := Delivers.answers taken delivers
    constructor
    · rintro rfl
      rcases answers with ⟨promised, -⟩ | ⟨-, onlyQuic⟩
      · exact (account.promised i stream endpoint promised).2
      · exact absurd (onlyQuic rfl) overTcp
    · rintro ⟨t', isEarlier, takesOut⟩
      rcases answers with ⟨-, isReused⟩ | ⟨isNew, -⟩
      · exact isReused
      · exact absurd (account.opened t' isEarlier stream takesOut.wasIdle) isNew
  · intro before first middle second after split stream delivered redelivered
    by_contra never
    rcases runs.before_logged split with ⟨earlier, taken⟩
    have account := accounted_of_runs earlier
    have out : Out stream (before ++ first :: middle) := by
      refine ⟨before, first, middle, rfl, delivered, ?_⟩
      intro t' isBetween releases
      exact never ⟨t', isBetween, releases⟩
    rcases account.out stream out with ⟨k, placed⟩
    rcases redelivered with ⟨j, endpoint, fromPool, delivers⟩
    rcases Delivers.answers taken delivers with ⟨promised, -⟩ | ⟨isNew, -⟩
    · have isCounter := placed.promised j _ promised (by simp [Checkout.streams])
      simp at isCounter
    · exact isNew (placed.known (by simp))

end Account

/-- The second relay is given the connection that the first one has released. -/
theorem pool_ownership_sharedConnection :
    ∃ log proxy, Runs (logged step) anyInput twoRelays log proxy ∧
      (proxy.relays true).backend = some ⟨1, .TCP⟩ ∧ PoolOwnership log proxy := by
  have reached : (run (logged step) (fun _ _ => true) twoRelays
      sharedConnection).any
        (fun last => decide ((last.1.relays true).backend = some ⟨1, .TCP⟩)) = true := by
    decide +kernel
  rcases exists_runs_any reached with ⟨log, proxy, runs, given⟩
  exact ⟨log, proxy, runs, given, pool_ownership runs⟩

end Proxy

end ReverseProxy
