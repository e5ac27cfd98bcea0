import ReverseProxy.Text.BigEndian
import ReverseProxy.Transport.QuicSteer
import ReverseProxy.Transport.SendRetry

/-!
# Receiving QUIC datagrams

The receive loops of `QuicPacketDemux` (`transport/quic_demux.cpp`).  Each socket has one
buffer and one endpoint that every datagram is received into; `on_packet` copies the
datagram, posts it to the worker that `route` chooses and receives again.  The posts of a
worker run in order on its own thread.

The kernel is free to complete a receive at any time, with a datagram or with an error;
the handler of a completed receive runs later.  `stop` cancels the receives that are
outstanding, and a handler that is queued already re-arms its socket all the same.
-/

namespace ReverseProxy

open Machine Text

/-! ## Addresses -/

/-- `AF_INET` and `AF_INET6`. -/
def AddressFamily.number : AddressFamily → UInt8
  | .inet => 2
  | .inet6 => 10

/-- The length of an address. -/
def AddressFamily.addressLength : AddressFamily → ℕ
  | .inet => 4
  | .inet6 => 16

/-- `asio::ip::udp::endpoint`, the address in network order. -/
structure UdpEndpoint where
  family : AddressFamily
  address : Bytes
  port : UInt16
  sized : address.length = family.addressLength
  deriving DecidableEq

/-- A default constructed endpoint. -/
def UdpEndpoint.any : UdpEndpoint := ⟨.inet, [0, 0, 0, 0], 0, rfl⟩

/--
The `sockaddr_storage` of an endpoint, on a little-endian host; `sin6_flowinfo` and
`sin6_scope_id` stay zero.
-/
def toSockaddr (ep : UdpEndpoint) : Bytes :=
  match ep.family with
  | .inet =>
    [ep.family.number, 0] ++ toBigEndian 2 ep.port.toNat ++ ep.address ++ List.replicate 120 0
  | .inet6 =>
    [ep.family.number, 0] ++ toBigEndian 2 ep.port.toNat ++ List.replicate 4 0 ++ ep.address ++
      List.replicate 104 0

/-- The `ss_family` field. -/
def ssFamily (sa : Bytes) : ℕ := (sa.getD 0 0).toNat + 256 * (sa.getD 1 0).toNat

/-- The family that `on_packet` works on. -/
def familyOf (localSa : Bytes) : AddressFamily :=
  if ssFamily localSa = AddressFamily.inet6.number.toNat then .inet6 else .inet

theorem familyOf_toSockaddr (ep : UdpEndpoint) : familyOf (toSockaddr ep) = ep.family := by
  unfold toSockaddr
  cases ep.family <;> rfl

/-- Where the address starts: behind the port, or behind `sin6_flowinfo`. -/
def AddressFamily.addressOffset : AddressFamily → ℕ
  | .inet => 4
  | .inet6 => 8

/-- The address in a `sockaddr_storage`. -/
def saAddress (sa : Bytes) : Bytes :=
  (sa.drop (familyOf sa).addressOffset).take (familyOf sa).addressLength

/-- The port in a `sockaddr_storage`, as `ntohs` reads it. -/
def saPort (sa : Bytes) : ℕ := ofBigEndian ((sa.drop 2).take 2)

/-- The structure is filled whole, and the endpoint can be read back from it. -/
theorem reads_toSockaddr (ep : UdpEndpoint) :
    (toSockaddr ep).length = 128 ∧ familyOf (toSockaddr ep) = ep.family ∧
      saPort (toSockaddr ep) = ep.port.toNat ∧ saAddress (toSockaddr ep) = ep.address := by
  have isPort : ofBigEndian (toBigEndian 2 ep.port.toNat) = ep.port.toNat := by
    rw [ofBigEndian_toBigEndian]
    exact Nat.mod_eq_of_lt ep.port.toNat_lt
  have sized := ep.sized
  rw [saAddress, familyOf_toSockaddr, saPort]
  unfold toSockaddr
  cases isFamily : ep.family with
  | inet =>
    rw [isFamily] at sized
    refine ⟨by simp [sized, AddressFamily.addressLength], rfl, isPort, ?_⟩
    exact List.take_left' sized
  | inet6 =>
    rw [isFamily] at sized
    refine ⟨by simp [sized, AddressFamily.addressLength], rfl, isPort, ?_⟩
    exact List.take_left' sized

/-- Different endpoints have different addresses for lsquic. -/
theorem toSockaddr_injective : Function.Injective toSockaddr := by
  intro ep other same
  rcases reads_toSockaddr ep with ⟨-, family, port, address⟩
  rcases reads_toSockaddr other with ⟨-, family', port', address'⟩
  rw [same] at family port address
  rcases ep with ⟨_, _, _, _⟩
  rcases other with ⟨_, _, _, _⟩
  cases family.symm.trans family'
  cases address.symm.trans address'
  cases UInt16.toNat_inj.mp (port.symm.trans port')
  rfl

/-! ## The receive loops -/

/-- How an `async_receive_from` has completed; `n` bytes are in the buffer. -/
inductive RecvResult where
  | datagram (n : ℕ)
  | aborted
  | failed
  deriving DecidableEq, Repr

/-- The size of a receive buffer. -/
def recvSize : ℕ := 65536

/-- One socket of the demux with the members that its receives use. -/
structure RecvSocket where
  recvBuf : Bytes := List.replicate recvSize 0
  recvEndpoint : UdpEndpoint := .any
  localSa : Bytes := List.replicate 128 0
  /-- The receives that have not completed yet. -/
  receives : ℕ := 0
  /-- The completed receives whose handlers are queued. -/
  handlers : List RecvResult := []

namespace RecvSocket

/-- The kernel completes a receive: a datagram that is too long is cut off. -/
def arrive (socket : RecvSocket) (data : Bytes) (peer : UdpEndpoint) : RecvSocket :=
  let data := data.take recvSize
  { socket with
    recvBuf := data ++ socket.recvBuf.drop data.length
    recvEndpoint := peer
    receives := socket.receives - 1
    handlers := socket.handlers ++ [.datagram data.length] }

/-- A receive fails. -/
def fail (socket : RecvSocket) : RecvSocket :=
  { socket with
    receives := socket.receives - 1
    handlers := socket.handlers ++ [.failed] }

/-- `cancel`. -/
def cancel (socket : RecvSocket) : RecvSocket :=
  { socket with
    receives := 0
    handlers := socket.handlers ++ List.replicate socket.receives .aborted }

end RecvSocket

/-- The arguments of `QuicServerEngine::deliver_packet`, and the engine it is called on. -/
structure Delivery where
  engine : ℕ
  pkt : Bytes
  localSa : Bytes
  peerSa : Bytes
  deriving DecidableEq, Repr

/-- The sockets of the demux, and the workers. -/
structure QuicReceiver where
  ingress : QuicIngress
  socket : AddressFamily → RecvSocket
  /-- What has been posted to each worker and has not run yet. -/
  posted : ℕ → List Delivery := fun _ => []

namespace QuicReceiver

/-- What is recorded. -/
inductive Record where
  | arrived (family : AddressFamily) (data : Bytes) (peer : UdpEndpoint)
  /-- The handler of a datagram has posted it, or dropped it. -/
  | routed (family : AddressFamily) (outcome : Option Delivery)
  | delivered (delivery : Delivery)
  deriving DecidableEq

/-- Changes a socket. -/
def setSocket (r : QuicReceiver) (family : AddressFamily) (socket : RecvSocket) : QuicReceiver :=
  { r with socket := Function.update r.socket family socket }

/-- `do_recv` and `do_recv6`. -/
def doRecv (r : QuicReceiver) (family : AddressFamily) : QuicReceiver :=
  r.setSocket family { r.socket family with receives := (r.socket family).receives + 1 }

/-- `start`. -/
def start (r : QuicReceiver) : QuicReceiver :=
  let r := r.doRecv .inet
  if r.ingress.demux.isOpen .inet6 then r.doRecv .inet6 else r

/-- `stop`. -/
def stop (r : QuicReceiver) : QuicReceiver :=
  let r := r.setSocket .inet (r.socket .inet).cancel
  if r.ingress.demux.isOpen .inet6 then r.setSocket .inet6 (r.socket .inet6).cancel else r

/-- Posts to a worker. -/
def post (r : QuicReceiver) (worker : ℕ) (delivery : Delivery) : QuicReceiver :=
  { r with posted := Function.update r.posted worker (r.posted worker ++ [delivery]) }

variable (dcidFromPacket : Bytes → ℕ → Option (ℕ × ℕ))

/-- The source address is only logged. -/
def onPacket (r : QuicReceiver) (result : RecvResult) (localSa : Bytes) :
    QuicReceiver × List Record :=
  let family := familyOf localSa
  let socket := r.socket family
  match result with
  | .aborted => (r, [])
  | .failed => (if r.ingress.demux.isOpen family then r.doRecv family else r, [])
  | .datagram n =>
    let raw := socket.recvBuf.take n
    let demux := r.ingress.demux
    let w := demux.route dcidFromPacket raw socket.recvEndpoint.address
    if w < 0 ∨ demux.workers.length ≤ w then (r.doRecv family, [.routed family none])
    else
      let delivery : Delivery :=
        { engine := demux.workers.getD w.toNat 0
          pkt := raw
          localSa
          peerSa := toSockaddr socket.recvEndpoint }
      ((r.post w.toNat delivery).doRecv family, [.routed family (some delivery)])

/-- What can happen. -/
inductive Event where
  | arrive (family : AddressFamily) (data : Bytes) (peer : UdpEndpoint)
  | fail (family : AddressFamily)
  /-- The oldest queued handler of a socket runs. -/
  | handler (family : AddressFamily)
  | stop
  /-- A callback of an engine that changes the table of connection ids. -/
  | engine (event : QuicIngress.Event)
  /-- The oldest post of a worker runs. -/
  | deliver (worker : ℕ)

/-- One event. -/
def step : Step QuicReceiver Event Record
  | r, .arrive family data peer =>
    if 0 < (r.socket family).receives then
      some (r.setSocket family ((r.socket family).arrive data peer), [.arrived family data peer])
    else none
  | r, .fail family =>
    if 0 < (r.socket family).receives then
      some (r.setSocket family (r.socket family).fail, [])
    else none
  | r, .handler family =>
    match (r.socket family).handlers with
    | [] => none
    | result :: later =>
      some ((r.setSocket family { r.socket family with handlers := later }).onPacket
        dcidFromPacket result (r.socket family).localSa)
  | r, .stop => some (r.stop, [])
  | r, .engine event =>
    (r.ingress.step dcidFromPacket event).map fun result => ({ r with ingress := result.1 }, [])
  | r, .deliver worker =>
    match r.posted worker with
    | [] => none
    | delivery :: later =>
      some ({ r with posted := Function.update r.posted worker later }, [.delivered delivery])

/-- lsquic reports as new only connection ids that it has had from the same engine. -/
def ReportsOwn (r : QuicReceiver) : Event → Prop
  | .engine event => r.ingress.ReportsOwn event
  | _ => True

instance (r : QuicReceiver) : ∀ event, Decidable (r.ReportsOwn event)
  | .engine event => inferInstanceAs (Decidable (r.ingress.ReportsOwn event))
  | .arrive _ _ _ | .fail _ | .handler _ | .stop | .deliver _ => .isTrue trivial

/-- `n` workers are registered and the sockets are bound; nothing has been received. -/
def bind (n fd : ℕ) (dualStack : Bool) (fd6 : Option ℕ) (bound : AddressFamily → UdpEndpoint) :
    QuicReceiver :=
  let demux := QuicPacketDemux.construct fd dualStack fd6
  let ingress := QuicIngress.start n
  { ingress :=
      { ingress with
        demux := { ingress.demux with rawFd := demux.rawFd, raw6Fd := demux.raw6Fd } }
    socket := fun family =>
      if demux.isOpen family then { localSa := toSockaddr (bound family) } else {} }

/-! ## What a trace shows -/

/-- The datagram that arrived. -/
def Record.arrival? (family : AddressFamily) : Record → Option (Bytes × UdpEndpoint)
  | .arrived arrivedOn data peer => if arrivedOn = family then some (data, peer) else none
  | _ => none

/-- What a handler did. -/
def Record.outcome? (family : AddressFamily) : Record → Option (Option Delivery)
  | .routed routedOn outcome => if routedOn = family then some outcome else none
  | _ => none

/-- What was posted. -/
def Record.post? : Record → Option Delivery
  | .routed _ outcome => outcome
  | _ => none

/-- What was delivered. -/
def Record.delivery? : Record → Option Delivery
  | .delivered delivery => some delivery
  | _ => none

/-- The datagrams that a socket has received. -/
def arrivals (family : AddressFamily) (trace : List Record) : List (Bytes × UdpEndpoint) :=
  trace.filterMap (Record.arrival? family)

/-- What the handlers of a socket's datagrams have done with them. -/
def outcomes (family : AddressFamily) (trace : List Record) : List (Option Delivery) :=
  trace.filterMap (Record.outcome? family)

/-- What has been posted for a worker. -/
def postsTo (worker : ℕ) (trace : List Record) : List Delivery :=
  (trace.filterMap Record.post?).filter fun delivery => delivery.engine = worker

/-- The packets that an engine has been given. -/
def deliveriesTo (worker : ℕ) (trace : List Record) : List Delivery :=
  (trace.filterMap Record.delivery?).filter fun delivery => delivery.engine = worker

/-- What has to become of a datagram: its connection id alone determines the worker. -/
def expected (n : ℕ) (dcidOf : Bytes → Option Bytes) (localSa : Bytes)
    (datagram : Bytes × UdpEndpoint) : Option Delivery :=
  (QuicIngress.receiver n (dcidOf (datagram.1.take recvSize))).map fun engine =>
    { engine
      pkt := datagram.1.take recvSize
      localSa
      peerSa := toSockaddr datagram.2 }

/-! ## One socket -/

/--
A socket with what it has received and what has become of it: either every datagram has
been handled and at most one receive or handler is under way, or the last datagram is
whole in the buffer and its handler is queued.
-/
inductive Tracks (n : ℕ) (dcidOf : Bytes → Option Bytes) (localSa : Bytes)
    (arrived : List (Bytes × UdpEndpoint)) (handled : List (Option Delivery))
    (socket : RecvSocket) : Prop where
  | waits (few : socket.receives + socket.handlers.length ≤ 1)
      (quiet : ∀ m, .datagram m ∉ socket.handlers)
      (all : handled = arrived.map (expected n dcidOf localSa))
      -- a socket that is not open is not bound either, and never used
      (isBound : socket.localSa = localSa ∨ socket.receives = 0 ∧ socket.handlers = [])
  | holds (m : ℕ) (data : Bytes) (peer : UdpEndpoint) (before : List (Bytes × UdpEndpoint))
      (receives : socket.receives = 0) (handler : socket.handlers = [.datagram m])
      (last : arrived = before ++ [(data, peer)])
      (rest : handled = before.map (expected n dcidOf localSa))
      (whole : socket.recvBuf.take m = data.take recvSize)
      (endpoint : socket.recvEndpoint = peer) (isBound : socket.localSa = localSa)

section Socket

variable {n : ℕ} {dcidOf : Bytes → Option Bytes} {localSa : Bytes}
  {arrived : List (Bytes × UdpEndpoint)} {handled : List (Option Delivery)} {socket : RecvSocket}
  {result : RecvResult} {later : List RecvResult}

theorem Tracks.arrive (tracks : Tracks n dcidOf localSa arrived handled socket)
    (receiving : 0 < socket.receives) (data : Bytes) (peer : UdpEndpoint) :
    Tracks n dcidOf localSa (arrived ++ [(data, peer)]) handled (socket.arrive data peer) := by
  cases tracks with
  | waits few quiet all isBound =>
    have none : socket.handlers = [] := by
      rw [← List.length_eq_zero_iff]
      omega
    refine .holds (data.take recvSize).length data peer arrived ?_ ?_ rfl all List.take_left rfl ?_
    · simp only [RecvSocket.arrive]
      omega
    · rw [RecvSocket.arrive, none]
      rfl
    · exact isBound.resolve_right (by omega)
  | holds m data peer before receives => omega

theorem Tracks.fail (tracks : Tracks n dcidOf localSa arrived handled socket)
    (receiving : 0 < socket.receives) : Tracks n dcidOf localSa arrived handled socket.fail := by
  cases tracks with
  | waits few quiet all isBound =>
    refine .waits ?_ ?_ all (.inl (isBound.resolve_right (by omega)))
    · simp only [RecvSocket.fail, List.length_append, List.length_singleton]
      omega
    · intro m
      simp [RecvSocket.fail, quiet m]
  | holds m data peer before receives => omega

theorem Tracks.cancel (tracks : Tracks n dcidOf localSa arrived handled socket) :
    Tracks n dcidOf localSa arrived handled socket.cancel := by
  cases tracks with
  | waits few quiet all isBound =>
    refine .waits ?_ ?_ all (isBound.imp_right ?_)
    · simp only [RecvSocket.cancel, List.length_append, List.length_replicate]
      omega
    · intro m
      simp [RecvSocket.cancel, quiet m, List.mem_replicate]
    · rintro ⟨idle, none⟩
      simp [RecvSocket.cancel, idle, none]
  | holds m data peer before receives handler last rest whole endpoint isBound =>
    refine .holds m data peer before rfl ?_ last rest whole endpoint isBound
    simp [RecvSocket.cancel, receives, handler]

theorem Tracks.localSa_eq (tracks : Tracks n dcidOf localSa arrived handled socket)
    (queued : socket.handlers = result :: later) : socket.localSa = localSa := by
  cases tracks with
  | waits few quiet all isBound => exact isBound.resolve_right (by simp [queued])
  | holds m data peer before receives handler last rest whole endpoint isBound => exact isBound

/-- A handler that had no datagram is gone, and the socket may be receiving again. -/
theorem Tracks.retry (tracks : Tracks n dcidOf localSa arrived handled socket)
    (queued : socket.handlers = result :: later) (noDatagram : ∀ m, result ≠ .datagram m)
    (more : ℕ) (atMost : more ≤ 1) :
    Tracks n dcidOf localSa arrived handled
      { socket with handlers := later, receives := socket.receives + more } := by
  have isBound := tracks.localSa_eq queued
  cases tracks with
  | waits few quiet all =>
    rw [queued, List.length_cons] at few
    refine .waits ?_ ?_ all (.inl isBound)
    · dsimp only
      omega
    · intro m isMem
      exact quiet m (queued ▸ List.mem_cons_of_mem _ isMem)
  | holds m data peer before receives handler =>
    rw [queued, List.cons.injEq] at handler
    exact absurd handler.1 (noDatagram m)

/-- The handler of a datagram finds it in the buffer. -/
theorem Tracks.handle {m : ℕ} (tracks : Tracks n dcidOf localSa arrived handled socket)
    (queued : socket.handlers = .datagram m :: later) {outcome : Option Delivery}
    (isOutcome : outcome =
      (QuicIngress.receiver n (dcidOf (socket.recvBuf.take m))).map fun engine =>
        ⟨engine, socket.recvBuf.take m, socket.localSa, toSockaddr socket.recvEndpoint⟩) :
    Tracks n dcidOf localSa arrived (handled ++ [outcome])
      { socket with handlers := later, receives := socket.receives + 1 } := by
  cases tracks with
  | waits few quiet all => exact absurd (queued ▸ List.mem_cons_self) (quiet m)
  | holds _ data peer before receives handler last rest whole endpoint isBound =>
    rw [queued] at handler
    cases handler
    refine .waits ?_ ?_ ?_ (.inl isBound)
    · simp [receives]
    · simp
    · rw [isOutcome, whole, endpoint, isBound, last, rest, List.map_append, List.map_singleton]
      rfl

end Socket

/-! ## All sockets and workers -/

section Steps

variable {n : ℕ} {dcidOf : Bytes → Option Bytes} {bound : AddressFamily → UdpEndpoint}
  {dcidFromPacket : Bytes → ℕ → Option (ℕ × ℕ)} {trace records : List Record}
  {r next : QuicReceiver}

/-- Both sockets with what the trace shows of them. -/
def SocketsExact (n : ℕ) (dcidOf : Bytes → Option Bytes) (bound : AddressFamily → UdpEndpoint)
    (trace : List Record) (socket : AddressFamily → RecvSocket) : Prop :=
  ∀ family, Tracks n dcidOf (toSockaddr (bound family)) (arrivals family trace)
    (outcomes family trace) (socket family)

/-- What each worker has been given is what was posted for it, in order, up to its queue. -/
def PostsExact (trace : List Record) (posted : ℕ → List Delivery) : Prop :=
  ∀ worker, deliveriesTo worker trace ++ posted worker = postsTo worker trace

theorem postsTo_append (worker : ℕ) (trace records : List Record) :
    postsTo worker (trace ++ records) = postsTo worker trace ++ postsTo worker records := by
  simp [postsTo]

theorem deliveriesTo_append (worker : ℕ) (trace records : List Record) :
    deliveriesTo worker (trace ++ records) =
      deliveriesTo worker trace ++ deliveriesTo worker records := by
  simp [deliveriesTo]

/-- What happens to one socket does not concern the other. -/
theorem SocketsExact.update {socket : AddressFamily → RecvSocket} {later : List Record}
    (exact : SocketsExact n dcidOf bound trace socket) {family : AddressFamily}
    {changed : RecvSocket}
    (tracks : Tracks n dcidOf (toSockaddr (bound family)) (arrivals family later)
      (outcomes family later) changed) (others : ∀ other, other ≠ family →
      arrivals other later = arrivals other trace ∧ outcomes other later = outcomes other trace) :
    SocketsExact n dcidOf bound later (Function.update socket family changed) := by
  intro other
  rcases eq_or_ne other family with rfl | different
  · rw [Function.update_self]
    exact tracks
  · rw [Function.update_of_ne different, (others other different).1, (others other different).2]
    exact exact other

/-- One socket changes and the trace shows nothing. -/
theorem SocketsExact.change {socket : AddressFamily → RecvSocket}
    (exact : SocketsExact n dcidOf bound trace socket) {family : AddressFamily}
    {changed : RecvSocket}
    (tracks : Tracks n dcidOf (toSockaddr (bound family)) (arrivals family trace)
      (outcomes family trace) changed) :
    SocketsExact n dcidOf bound trace (Function.update socket family changed) :=
  exact.update tracks fun _ _ => ⟨rfl, rfl⟩

theorem PostsExact.silent {posted : ℕ → List Delivery} (exact : PostsExact trace posted)
    (noPost : records.filterMap Record.post? = [])
    (noDelivery : records.filterMap Record.delivery? = []) :
    PostsExact (trace ++ records) posted := by
  intro worker
  rw [postsTo_append, deliveriesTo_append, postsTo, deliveriesTo, postsTo, deliveriesTo, noPost,
    noDelivery, List.filter_nil, List.append_nil, List.append_nil]
  exact exact worker

theorem PostsExact.post {posted : ℕ → List Delivery} (exact : PostsExact trace posted)
    (family : AddressFamily) (delivery : Delivery) :
    PostsExact (trace ++ [.routed family (some delivery)])
      (Function.update posted delivery.engine (posted delivery.engine ++ [delivery])) := by
  intro worker
  rw [postsTo_append, deliveriesTo_append, ← exact worker]
  rcases eq_or_ne worker delivery.engine with rfl | different
  · simp [deliveriesTo, postsTo, Record.post?, Record.delivery?]
  · simp [deliveriesTo, postsTo, Record.post?, Record.delivery?, different, different.symm]

theorem PostsExact.deliver {posted : ℕ → List Delivery} (exact : PostsExact trace posted)
    {worker : ℕ} {delivery : Delivery} {later : List Delivery}
    (queued : posted worker = delivery :: later) :
    PostsExact (trace ++ [.delivered delivery]) (Function.update posted worker later) := by
  have isWorker : delivery.engine = worker := by
    have posts : delivery ∈ postsTo worker trace := by
      rw [← exact worker, queued]
      simp
    simpa using (List.mem_filter.mp posts).2
  subst isWorker
  intro other
  rw [postsTo_append, deliveriesTo_append, ← exact other]
  rcases eq_or_ne other delivery.engine with rfl | different
  · simp [deliveriesTo, postsTo, Record.post?, Record.delivery?, queued]
  · simp [deliveriesTo, postsTo, Record.post?, Record.delivery?, different, different.symm]

/-- What becomes of the datagram in the buffer depends on its connection id only. -/
theorem onPacket_datagram (affine : QuicIngress.Affine n r.ingress) (atMost : n ≤ 256)
    (findsDcid : QuicIngress.FindsDcid dcidFromPacket dcidOf) (family : AddressFamily)
    {localSa : Bytes} (isFamily : familyOf localSa = family) (m : ℕ) :
    let socket := r.socket family
    let raw := socket.recvBuf.take m
    (QuicIngress.receiver n (dcidOf raw) = none →
      r.onPacket dcidFromPacket (.datagram m) localSa =
        (r.doRecv family, [.routed family none])) ∧
    ∀ engine, QuicIngress.receiver n (dcidOf raw) = some engine →
      r.onPacket dcidFromPacket (.datagram m) localSa =
        ((r.post engine ⟨engine, raw, localSa, toSockaddr socket.recvEndpoint⟩).doRecv family,
          [.routed family (some ⟨engine, raw, localSa, toSockaddr socket.recvEndpoint⟩)]) := by
  intro socket raw
  have below := QuicIngress.home_lt (n := n) (dcidOf raw)
  have routes : r.ingress.demux.route dcidFromPacket raw socket.recvEndpoint.address =
      QuicIngress.home n (dcidOf raw) := affine.route_eq atMost findsDcid _ _
  subst isFamily
  simp only [onPacket, QuicIngress.receiver]
  rw [routes, affine.workers, List.length_range]
  refine ⟨?_, ?_⟩
  · intro dropped
    rw [ite_eq_left_iff] at dropped
    rw [if_pos (.inl (by_contra fun routed => absurd (dropped routed) (by simp)))]
  · intro engine chosen
    rw [Option.ite_none_left_eq_some] at chosen
    rcases chosen with ⟨routed, ⟨⟩⟩
    rw [if_neg (by omega), List.getD_eq_getElem?_getD, List.getElem?_range (by omega)]
    rfl

/-- What the trace of a run shows, together with the state that it has led to. -/
structure Exact (n : ℕ) (dcidOf : Bytes → Option Bytes) (bound : AddressFamily → UdpEndpoint)
    (trace : List Record) (r : QuicReceiver) : Prop where
  affine : QuicIngress.Affine n r.ingress
  sockets : SocketsExact n dcidOf bound trace r.socket
  posts : PostsExact trace r.posted

theorem doRecv_setSocket (family : AddressFamily) (socket : RecvSocket) :
    (r.setSocket family socket).doRecv family =
      r.setSocket family { socket with receives := socket.receives + 1 } := by
  simp only [doRecv, setSocket, Function.update_self, Function.update_idem]

theorem SocketsExact.handle (exact : SocketsExact n dcidOf bound trace r.socket)
    {family : AddressFamily} {m : ℕ} {later : List RecvResult}
    (queued : (r.socket family).handlers = .datagram m :: later) {outcome : Option Delivery}
    (isOutcome : outcome =
      (QuicIngress.receiver n (dcidOf ((r.socket family).recvBuf.take m))).map fun engine =>
        ⟨engine, (r.socket family).recvBuf.take m, (r.socket family).localSa,
          toSockaddr (r.socket family).recvEndpoint⟩) :
    SocketsExact n dcidOf bound (trace ++ [.routed family outcome])
      (Function.update r.socket family { r.socket family with
        handlers := later, receives := (r.socket family).receives + 1 }) := by
  have handled := (exact family).handle queued isOutcome
  apply exact.update
  · simpa [arrivals, outcomes, List.filterMap_cons, Record.arrival?, Record.outcome?] using handled
  · intro other different
    simp [arrivals, outcomes, Record.arrival?, Record.outcome?, different.symm]

theorem Exact.handler (exact : Exact n dcidOf bound trace r) (atMost : n ≤ 256)
    (findsDcid : QuicIngress.FindsDcid dcidFromPacket dcidOf)
    (families : ∀ family, (bound family).family = family) {family : AddressFamily}
    {result : RecvResult} {later : List RecvResult}
    (queued : (r.socket family).handlers = result :: later)
    (handled : (r.setSocket family { r.socket family with handlers := later }).onPacket
      dcidFromPacket result (r.socket family).localSa = (next, records)) :
    Exact n dcidOf bound (trace ++ records) next := by
  have isFamily : familyOf (r.socket family).localSa = family := by
    rw [(exact.sockets family).localSa_eq queued, familyOf_toSockaddr, families]
  cases result with
  | aborted =>
    cases handled
    rw [List.append_nil]
    refine ⟨exact.affine, exact.sockets.change ?_, exact.posts⟩
    exact (exact.sockets family).retry queued nofun 0 (Nat.zero_le 1)
  | failed =>
    rw [onPacket, isFamily, doRecv_setSocket] at handled
    split at handled
    · cases handled
      rw [List.append_nil]
      refine ⟨exact.affine, exact.sockets.change ?_, exact.posts⟩
      exact (exact.sockets family).retry queued nofun 1 le_rfl
    · cases handled
      rw [List.append_nil]
      refine ⟨exact.affine, exact.sockets.change ?_, exact.posts⟩
      exact (exact.sockets family).retry queued nofun 0 (Nat.zero_le 1)
  | datagram m =>
    have isAffine : QuicIngress.Affine n
        (r.setSocket family { r.socket family with handlers := later }).ingress := exact.affine
    have spec := onPacket_datagram isAffine atMost findsDcid family isFamily m
    simp only [setSocket, Function.update_self] at spec
    rw [setSocket] at handled
    cases chosen : QuicIngress.receiver n (dcidOf ((r.socket family).recvBuf.take m)) with
    | none =>
      rw [spec.1 chosen] at handled
      cases handled
      refine ⟨exact.affine, ?_, exact.posts.silent rfl rfl⟩
      simp only [doRecv, setSocket, Function.update_self, Function.update_idem]
      apply exact.sockets.handle queued
      rw [chosen, Option.map_none]
    | some engine =>
      rw [spec.2 engine chosen] at handled
      cases handled
      refine ⟨exact.affine, ?_, exact.posts.post family _⟩
      simp only [doRecv, post, setSocket, Function.update_self, Function.update_idem]
      apply exact.sockets.handle queued
      rw [chosen, Option.map_some]

theorem Exact.stop (exact : Exact n dcidOf bound trace r) : Exact n dcidOf bound trace r.stop := by
  have cancelled := exact.sockets.change (exact.sockets .inet).cancel
  rw [QuicReceiver.stop]
  split
  · exact ⟨exact.affine, cancelled.change (cancelled .inet6).cancel, exact.posts⟩
  · exact ⟨exact.affine, cancelled, exact.posts⟩

theorem Exact.step (exact : Exact n dcidOf bound trace r) (atMost : n ≤ 256)
    (findsDcid : QuicIngress.FindsDcid dcidFromPacket dcidOf)
    (families : ∀ family, (bound family).family = family) {event : Event}
    (own : r.ReportsOwn event) (taken : step dcidFromPacket r event = some (next, records)) :
    Exact n dcidOf bound (trace ++ records) next := by
  cases event with
  | arrive family data peer =>
    rw [QuicReceiver.step, Option.ite_none_right_eq_some] at taken
    rcases taken with ⟨receiving, ⟨⟩⟩
    refine ⟨exact.affine, exact.sockets.update ?_ ?_, exact.posts.silent rfl rfl⟩
    · have arrived := (exact.sockets family).arrive receiving data peer
      simpa [arrivals, outcomes, List.filterMap_cons, Record.arrival?, Record.outcome?] using arrived
    · intro other different
      simp [arrivals, outcomes, Record.arrival?, Record.outcome?, different.symm]
  | fail family =>
    rw [QuicReceiver.step, Option.ite_none_right_eq_some] at taken
    rcases taken with ⟨receiving, ⟨⟩⟩
    rw [List.append_nil]
    exact ⟨exact.affine, exact.sockets.change ((exact.sockets family).fail receiving), exact.posts⟩
  | handler family =>
    simp only [QuicReceiver.step] at taken
    split at taken
    · cases taken
    · rename_i result later queued
      exact exact.handler atMost findsDcid families queued (Option.some.inj taken)
  | stop =>
    cases taken
    rw [List.append_nil]
    exact exact.stop
  | engine event =>
    rcases Option.map_eq_some_iff.mp taken with ⟨⟨ingress, _⟩, stepped, ⟨⟩⟩
    rw [List.append_nil]
    exact ⟨(exact.affine.step atMost findsDcid own stepped).1, exact.sockets, exact.posts⟩
  | deliver worker =>
    simp only [QuicReceiver.step] at taken
    split at taken
    · cases taken
    · rename_i delivery later queued
      cases taken
      refine ⟨exact.affine, ?_, exact.posts.deliver queued⟩
      intro family
      simpa [arrivals, outcomes, List.filterMap_cons, Record.arrival?, Record.outcome?] using
        exact.sockets family

end Steps

/-! ## Whole runs -/

section Runs

variable {n fd : ℕ} {dualStack : Bool} {fd6 : Option ℕ} {dcidOf : Bytes → Option Bytes}
  {bound : AddressFamily → UdpEndpoint} {dcidFromPacket : Bytes → ℕ → Option (ℕ × ℕ)}
  {trace : List Record} {r : QuicReceiver}

theorem exact_start (n fd : ℕ) (dualStack : Bool) (fd6 : Option ℕ)
    (dcidOf : Bytes → Option Bytes) (bound : AddressFamily → UdpEndpoint) :
    Exact n dcidOf bound [] (bind n fd dualStack fd6 bound).start := by
  have idle : ∀ family, ((bind n fd dualStack fd6 bound).socket family).receives = 0 ∧
      ((bind n fd dualStack fd6 bound).socket family).handlers = [] := by
    intro family
    simp only [QuicReceiver.bind]
    split <;> exact ⟨rfl, rfl⟩
  have armed : ∀ family, (bind n fd dualStack fd6 bound).ingress.demux.isOpen family = true →
      Tracks n dcidOf (toSockaddr (bound family)) [] []
        (((bind n fd dualStack fd6 bound).doRecv family).socket family) := by
    intro family isOpen
    have opened : (QuicPacketDemux.construct fd dualStack fd6).isOpen family = true := by
      cases family <;> exact isOpen
    refine .waits ?_ ?_ rfl (.inl ?_)
    · simp [doRecv, setSocket, idle family]
    · simp [doRecv, setSocket, idle family]
    · simp [doRecv, setSocket, QuicReceiver.bind, opened]
  have isOpen : (bind n fd dualStack fd6 bound).ingress.demux.isOpen .inet = true := by
    cases dualStack <;> cases fd6 <;> rfl
  have sockets : SocketsExact n dcidOf bound [] (bind n fd dualStack fd6 bound).socket := by
    intro family
    exact .waits (by simp [idle family]) (by simp [idle family]) rfl (.inr (idle family))
  have receiving := sockets.change (armed .inet isOpen)
  have started : QuicIngress.Affine n (bind n fd dualStack fd6 bound).ingress := by
    have affine := QuicIngress.affine_start n
    exact ⟨affine.workers, affine.engines, affine.engine, affine.table⟩
  rw [QuicReceiver.start]
  split
  · rename_i isOpen6
    exact ⟨started, receiving.change (armed .inet6 isOpen6), fun _ => rfl⟩
  · exact ⟨started, receiving, fun _ => rfl⟩

/--
No datagram is lost, doubled, reordered or changed on its way to the engine: the handlers
of a socket have dealt with all its datagrams in order, up to one whose handler is queued,
each going whole to the worker that its connection id determines; and a worker's engine has
been given what was posted to it, in order, up to what is queued.
-/
theorem datagrams_delivered (atMost : n ≤ 256)
    (findsDcid : QuicIngress.FindsDcid dcidFromPacket dcidOf)
    (families : ∀ family, (bound family).family = family)
    (runs : Runs (step dcidFromPacket) ReportsOwn (bind n fd dualStack fd6 bound).start
      trace r) :
    (∀ family, ∃ handled waiting, arrivals family trace = handled ++ waiting ∧
      waiting.length ≤ (r.socket family).handlers.length ∧
      (r.socket family).receives + (r.socket family).handlers.length ≤ 1 ∧
      outcomes family trace =
        handled.map (expected n dcidOf (toSockaddr (bound family)))) ∧
    ∀ worker, deliveriesTo worker trace ++ r.posted worker = postsTo worker trace := by
  have exact : Exact n dcidOf bound trace r := by
    apply Runs.invariant (exact_start n fd dualStack fd6 dcidOf bound) ?_ runs
    intro trace r event next records exact own taken
    exact exact.step atMost findsDcid families own taken
  refine ⟨?_, exact.posts⟩
  intro family
  cases exact.sockets family with
  | waits few quiet all => exact ⟨_, [], (List.append_nil _).symm, Nat.zero_le _, few, all⟩
  | holds m data peer before receives handler last rest =>
    refine ⟨before, [(data, peer)], last, ?_, ?_, rest⟩
    · rw [handler]
      rfl
    · simp [receives, handler]

/-- The wildcard addresses, port 443. -/
def anyAddress : AddressFamily → UdpEndpoint
  | .inet => ⟨.inet, [0, 0, 0, 0], 443, rfl⟩
  | .inet6 => ⟨.inet6, List.replicate 16 0, 443, rfl⟩

theorem family_anyAddress (family : AddressFamily) : (anyAddress family).family = family := by
  cases family <;> rfl

/-- One datagram on each socket, handled in the other order. -/
theorem datagrams_delivered_crossing :
    ∃ trace r, Runs (step QuicSteer.dcidPlace) ReportsOwn
        (bind 2 3 true (some 4) anyAddress).start trace r ∧
      (arrivals .inet trace).length = 1 ∧ (arrivals .inet6 trace).length = 1 ∧
      (r.posted 0).map Delivery.pkt = [[64, 0, 0, 0, 0, 0, 0, 0, 2, 9, 9]] ∧
      (deliveriesTo 1 trace).map Delivery.pkt = [[64, 1, 0, 0, 0, 0, 0, 0, 1]] ∧
      deliveriesTo 0 trace ++ r.posted 0 = postsTo 0 trace := by
  have reached : (run (step QuicSteer.dcidPlace)
      (fun r event => decide (r.ReportsOwn event)) (bind 2 3 true (some 4) anyAddress).start
      [.arrive .inet [64, 1, 0, 0, 0, 0, 0, 0, 1] ⟨.inet, [10, 0, 0, 1], 5000, rfl⟩,
        .arrive .inet6 [64, 0, 0, 0, 0, 0, 0, 0, 2, 9, 9] ⟨.inet6, List.replicate 16 1, 6000, rfl⟩,
        .handler .inet6, .handler .inet, .deliver 1]).any (fun last => decide (
          (arrivals .inet last.2).length = 1 ∧ (arrivals .inet6 last.2).length = 1 ∧
          (last.1.posted 0).map Delivery.pkt = [[64, 0, 0, 0, 0, 0, 0, 0, 2, 9, 9]] ∧
          (deliveriesTo 1 last.2).map Delivery.pkt = [[64, 1, 0, 0, 0, 0, 0, 0, 1]])) = true := by
    decide +kernel
  rcases exists_runs_of_run reached with ⟨trace, r, runs, arrived, arrived6, queued, given⟩
  exact ⟨trace, r, runs, arrived, arrived6, queued, given,
    (datagrams_delivered (by decide) QuicSteer.findsDcid_dcidPlace family_anyAddress runs).2 0⟩

end Runs

end QuicReceiver

end ReverseProxy
