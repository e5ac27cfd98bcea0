import Mathlib.Data.List.Count
import Mathlib.Logic.Function.Basic
import ReverseProxy.Machine.Ledger
import ReverseProxy.Relay.Footprint

/-!
# Relays that share a pool

`UpstreamPool` (`proxy/upstream_pool.cpp`) as far as idle TCP connections go, and any
number of relays over one pool.  `async_connect` decides at once: it has no endpoint, it
takes the oldest idle connection of the endpoint whose turn it is, or it connects.  Its
callback runs later here, as any other completion; the code runs it at once where it does
not connect, which is one of the orders considered.
-/

namespace ReverseProxy

open Text

/-- A backend and its idle connections. -/
structure EndpointEntry where
  be : BackendEndpoint
  /-- Idle keep-alive connections, the oldest first. -/
  idle : List TransportStream := []
  deriving DecidableEq

/-- `UpstreamPool`. -/
structure UpstreamPool where
  endpoints : List EndpointEntry := []
  rrIndex : ℕ := 0
  deriving DecidableEq

namespace UpstreamPool

/-- `kMaxIdlePerEndpoint`. -/
def maxIdlePerEndpoint : ℕ := 8

/-- What the pool will answer to a call. -/
inductive Checkout where
  | notFound
  | reused (stream : TransportStream) (endpoint : BackendEndpoint)
  /-- A TCP connection or a QUIC stream is on its way. -/
  | connecting (endpoint : BackendEndpoint)
  deriving DecidableEq

/-- The idle connection that is handed out. -/
def Checkout.streams : Checkout → List TransportStream
  | .reused stream _ => [stream]
  | .notFound | .connecting _ => []

/-- The endpoints of a group, with their positions. -/
def candidates (pool : UpstreamPool) (backendId : Bytes) : List (EndpointEntry × ℕ) :=
  pool.endpoints.zipIdx.filter fun entry => entry.1.be.backendId = backendId

/-- `async_connect`. -/
def asyncConnect (pool : UpstreamPool) (backendId : Bytes) : UpstreamPool × Checkout :=
  let candidates := pool.candidates backendId
  match candidates[pool.rrIndex % candidates.length]? with
  | none => (pool, .notFound)
  | some (entry, position) =>
    let rrIndex := (pool.rrIndex + 1) % 2 ^ 64
    if entry.be.protocol = .QUIC then ({ pool with rrIndex }, .connecting entry.be)
    else
      match entry.idle with
      | stream :: idle =>
        ({ endpoints := pool.endpoints.set position { entry with idle }, rrIndex },
          .reused stream entry.be)
      | [] => ({ pool with rrIndex }, .connecting entry.be)

/-- The loop of `release`: the first entry for the address takes the stream if it has room. -/
def shelve (endpoint : BackendEndpoint) (stream : TransportStream) :
    List EndpointEntry → List EndpointEntry
  | [] => []
  | entry :: later =>
    if entry.be.backendId = endpoint.backendId ∧ entry.be.host = endpoint.host ∧
        entry.be.port = endpoint.port then
      if entry.idle.length < maxIdlePerEndpoint then
        { entry with idle := entry.idle ++ [stream] } :: later
      else entry :: later
    else entry :: shelve endpoint stream later

/-- `release`. -/
def release (pool : UpstreamPool) (endpoint : BackendEndpoint) (stream : TransportStream) :
    UpstreamPool :=
  if endpoint.protocol = .QUIC then pool
  else { pool with endpoints := shelve endpoint stream pool.endpoints }

/-- All idle connections. -/
def streams (pool : UpstreamPool) : List TransportStream :=
  pool.endpoints.flatMap EndpointEntry.idle

/-! ## Where the idle connections go -/

theorem getElem?_of_candidates {pool : UpstreamPool} {backendId : Bytes} {entry : EndpointEntry}
    {position index : ℕ} (chosen : (pool.candidates backendId)[index]? = some (entry, position)) :
    pool.endpoints[position]? = some entry := by
  have inGroup := List.mem_of_getElem? chosen
  rw [candidates, List.mem_filter] at inGroup
  exact List.mem_zipIdx_iff_getElem?.mp inGroup.1

/-- A connection leaves the pool when it is handed out, and only then. -/
theorem count_asyncConnect (pool : UpstreamPool) (backendId : Bytes) (stream : TransportStream) :
    (pool.asyncConnect backendId).1.streams.count stream +
        (pool.asyncConnect backendId).2.streams.count stream = pool.streams.count stream := by
  unfold asyncConnect
  simp only
  split
  · simp [Checkout.streams]
  · rename_i entry position chosen
    split
    · simp [Checkout.streams, streams]
    · split
      · rename_i first idle isIdle
        have isEntry : pool.endpoints[position]? = some entry := getElem?_of_candidates chosen
        have moved := Machine.count_flatMap_set isEntry { entry with idle } EndpointEntry.idle stream
        simp only [isIdle, List.count_cons] at moved
        simp only [streams, Checkout.streams, List.count_cons, List.count_nil]
        omega
      · simp [Checkout.streams, streams]

theorem count_shelve_le (endpoint : BackendEndpoint) (stream other : TransportStream)
    (endpoints : List EndpointEntry) :
    ((shelve endpoint stream endpoints).flatMap EndpointEntry.idle).count other ≤
      (endpoints.flatMap EndpointEntry.idle).count other + if other = stream then 1 else 0 := by
  induction endpoints with
  | nil => simp [shelve]
  | cons entry later ih =>
    unfold shelve
    split
    · split
      · by_cases same : other = stream
        · subst same
          simp only [List.flatMap_cons, List.count_append, List.count_singleton_self, if_true]
          omega
        · have absent : List.count other [stream] = 0 := by
            rw [List.count_eq_zero, List.mem_singleton]
            exact same
          simp only [List.flatMap_cons, List.count_append, absent]
          omega
      · omega
    · simp only [List.flatMap_cons, List.count_append]
      omega

theorem count_release_le (pool : UpstreamPool) (endpoint : BackendEndpoint)
    (stream other : TransportStream) :
    (pool.release endpoint stream).streams.count other ≤
      pool.streams.count other + if other = stream then 1 else 0 := by
  unfold release
  split
  · omega
  · exact count_shelve_le endpoint stream other pool.endpoints

/-! ## What the entries hold -/

/-- `async_connect` takes from the front of an entry's queue at most. -/
theorem exists_of_mem_asyncConnect {pool : UpstreamPool} {backendId : Bytes} {entry : EndpointEntry}
    (isEntry : entry ∈ (pool.asyncConnect backendId).1.endpoints) :
    ∃ old ∈ pool.endpoints, entry.be = old.be ∧ entry.idle <:+ old.idle := by
  unfold asyncConnect at isEntry
  dsimp only at isEntry
  split at isEntry
  · exact ⟨entry, isEntry, rfl, List.suffix_refl _⟩
  · rename_i chosen position isChosen
    split at isEntry
    · exact ⟨entry, isEntry, rfl, List.suffix_refl _⟩
    · split at isEntry
      · rename_i first idle isIdle
        rcases List.mem_or_eq_of_mem_set isEntry with old | rfl
        · exact ⟨entry, old, rfl, List.suffix_refl _⟩
        · refine ⟨chosen, List.mem_of_getElem? (getElem?_of_candidates isChosen), rfl, ?_⟩
          rw [isIdle]
          exact List.suffix_cons first idle
      · exact ⟨entry, isEntry, rfl, List.suffix_refl _⟩

/-- A connection that is reused was idle for a TCP endpoint, which is reported with it. -/
theorem exists_of_reused {pool : UpstreamPool} {backendId : Bytes} {stream : TransportStream}
    {endpoint : BackendEndpoint}
    (reused : (pool.asyncConnect backendId).2 = .reused stream endpoint) :
    ∃ entry ∈ pool.endpoints, entry.be = endpoint ∧ stream ∈ entry.idle ∧
      endpoint.protocol ≠ .QUIC := by
  unfold asyncConnect at reused
  dsimp only at reused
  split at reused
  · cases reused
  · rename_i chosen position isChosen
    split_ifs at reused with quic
    split at reused
    · rename_i first idle isIdle
      cases reused
      refine ⟨chosen, List.mem_of_getElem? (getElem?_of_candidates isChosen), rfl, ?_, quic⟩
      rw [isIdle]
      exact List.mem_cons_self
    · cases reused

/-- A released connection joins the queue of an entry for its address, if there is room. -/
structure Joins (endpoint : BackendEndpoint) (stream : TransportStream)
    (old entry : EndpointEntry) : Prop where
  sameHost : old.be.host = endpoint.host
  samePort : old.be.port = endpoint.port
  room : old.idle.length < maxIdlePerEndpoint
  isIdle : entry.idle = old.idle ++ [stream]

theorem exists_of_mem_shelve {endpoint : BackendEndpoint} {stream : TransportStream}
    {endpoints : List EndpointEntry} {entry : EndpointEntry}
    (isEntry : entry ∈ shelve endpoint stream endpoints) :
    ∃ old ∈ endpoints, entry.be = old.be ∧
      (entry.idle = old.idle ∨ Joins endpoint stream old entry) := by
  induction endpoints with
  | nil => cases isEntry
  | cons first later ih =>
    unfold shelve at isEntry
    split_ifs at isEntry with isAddress room
    · rcases List.mem_cons.mp isEntry with rfl | isLater
      · exact ⟨first, List.mem_cons_self, rfl,
          .inr ⟨isAddress.2.1, isAddress.2.2, room, rfl⟩⟩
      · exact ⟨entry, List.mem_cons_of_mem _ isLater, rfl, .inl rfl⟩
    · exact ⟨entry, isEntry, rfl, .inl rfl⟩
    · rcases List.mem_cons.mp isEntry with rfl | isLater
      · exact ⟨entry, List.mem_cons_self, rfl, .inl rfl⟩
      · rcases ih isLater with ⟨old, isOld, facts⟩
        exact ⟨old, List.mem_cons_of_mem _ isOld, facts⟩

theorem exists_of_mem_release {pool : UpstreamPool} {endpoint : BackendEndpoint}
    {stream : TransportStream} {entry : EndpointEntry}
    (isEntry : entry ∈ (pool.release endpoint stream).endpoints) :
    ∃ old ∈ pool.endpoints, entry.be = old.be ∧
      (entry.idle = old.idle ∨ endpoint.protocol ≠ .QUIC ∧ Joins endpoint stream old entry) := by
  unfold release at isEntry
  split_ifs at isEntry with quic
  · exact ⟨entry, isEntry, rfl, .inl rfl⟩
  · rcases exists_of_mem_shelve isEntry with ⟨old, isOld, sameBe, same | joins⟩
    · exact ⟨old, isOld, sameBe, .inl same⟩
    · exact ⟨old, isOld, sameBe, .inr ⟨quic, joins⟩⟩

end UpstreamPool

/-- Relays over one pool. -/
structure Proxy (ι : Type) where
  relays : ι → RelaySession
  pool : UpstreamPool
  /-- What the pool has decided for the relays that wait for it. -/
  checkouts : ι → Option UpstreamPool.Checkout := fun _ => none
  /-- The streams that there have been so far. -/
  opened : List TransportStream := []

namespace Proxy

open RelaySession UpstreamPool

variable {ι : Type}

/-- The result that a relay is given is the one that the pool has decided on. -/
def Answers (proxy : Proxy ι) (i : ι) : Input → Bool
  | .complete (.connect _ _) (.connected result) =>
    match proxy.checkouts i, result with
    | some .notFound, .error ec => ec = .notFound
    | some (.reused stream endpoint), .ok connection => connection = (stream, endpoint, true)
    | some (.connecting _), .error _ => true
    | some (.connecting endpoint), .ok (stream, endpoint', fromPool) =>
      endpoint' = endpoint ∧ stream ∉ proxy.opened ∧
        (fromPool = true → endpoint.protocol = .QUIC)
    | _, _ => false
  | _ => true

variable [DecidableEq ι]

/-- The pool's side of what a relay has done. -/
def serve (i : ι) (proxy : Proxy ι) : Action → Proxy ι
  | .connect (.group backendId) =>
    let answer := proxy.pool.asyncConnect backendId
    { proxy with
      pool := answer.1, checkouts := Function.update proxy.checkouts i (some answer.2) }
  | .connect (.fresh endpoint) =>
    { proxy with checkouts := Function.update proxy.checkouts i (some (.connecting endpoint)) }
  | .release endpoint stream => { proxy with pool := proxy.pool.release endpoint stream }
  | _ => proxy

/-- A relay that has been given its connection waits for the pool no longer. -/
def collect (proxy : Proxy ι) (i : ι) : Input → Proxy ι
  | .complete (.connect _ _) (.connected _) =>
    { proxy with checkouts := Function.update proxy.checkouts i none }
  | _ => proxy

/-- The proxy after a callback of a relay, before the pool reacts to it. -/
def advance (proxy : Proxy ι) (i : ι) (input : Input) (relay : RelaySession) : Proxy ι :=
  { proxy.collect i input with
    relays := Function.update proxy.relays i relay
    opened := input.streams ++ proxy.opened }

/-- One callback of one relay, with what it asks of the pool. -/
def step : Machine.Step (Proxy ι) (ι × Input) (ι × Action) := fun proxy input =>
  if proxy.Answers input.1 input.2 then
    ((proxy.relays input.1).step input.2).map fun result =>
      (result.2.foldl (serve input.1) (proxy.advance input.1 input.2 result.1),
        result.2.map fun action => (input.1, action))
  else none

/-- A pool without connections, and relays that have been started. -/
def start (sessions : ι → Codec × List Router.Rule × ℕ) (endpoints : List BackendEndpoint) :
    Proxy ι :=
  { relays := fun i => RelaySession.start (sessions i).1 (sessions i).2.1 (sessions i).2.2
    pool := { endpoints := endpoints.map fun be => { be } } }

end Proxy

end ReverseProxy
