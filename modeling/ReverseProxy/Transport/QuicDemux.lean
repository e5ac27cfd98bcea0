import Mathlib.Data.List.GetD
import Mathlib.Logic.Function.Iterate
import ReverseProxy.Machine.Run
import ReverseProxy.Text.Ascii

/-!
# Routing QUIC packets to workers

`QuicPacketDemux` (`transport/quic_demux.cpp`) owns the socket that all QUIC clients send
to and hands each datagram to the engine of one worker.  The table `cid_to_worker_` is
written by all engines, each under the lock and one connection id at a time, so any
interleaving of their callbacks is one of single table updates.

What keeps a connection on one worker is not the table but the first byte of the
connection ids that the engines generate: the table never disagrees with it, so a hit, a
miss and an entry that is already gone all route alike.
-/

namespace ReverseProxy

open Machine Text

/-- The length of all connection ids that the server issues. -/
def kServerCidLen : ℕ := 8

/-- `QuicPacketDemux`. -/
structure QuicPacketDemux where
  /-- The shared sockets, `-1` where there is none. -/
  rawFd : ℤ := -1
  raw6Fd : ℤ := -1
  /-- The engine of each worker, by the engine's number. -/
  workers : List ℕ := []
  cidToWorker : Bytes → Option ℤ := fun _ => none

/-- The part of `QuicServerEngine` that the routing depends on. -/
structure QuicServerEngine where
  workerIdx : ℤ := -1
  /-- The connection ids that lsquic has had from `ea_generate_scid`. -/
  generated : List Bytes := []
  deriving DecidableEq

/-- The hash that spreads connection ids chosen by clients. -/
def fnv1a (key : Bytes) : UInt64 :=
  key.foldl (fun h byte => (h ^^^ byte.toUInt64) * 0x100000001b3) 0xcbf29ce484222325

namespace QuicPacketDemux

/-- `add_worker`. -/
def addWorker (demux : QuicPacketDemux) (engine : ℕ) : QuicPacketDemux × ℤ :=
  ({ demux with workers := demux.workers ++ [engine] }, demux.workers.length)

/-- `register_cid`. -/
def registerCid (demux : QuicPacketDemux) (key : Bytes) (workerIdx : ℤ) : QuicPacketDemux :=
  { demux with cidToWorker := Function.update demux.cidToWorker key (some workerIdx) }

/-- `remove_cid`. -/
def removeCid (demux : QuicPacketDemux) (key : Bytes) : QuicPacketDemux :=
  { demux with cidToWorker := Function.update demux.cidToWorker key none }

/-- The worker for a packet, `-1` to drop it; `dcidFromPacket` is `lsquic_dcid_from_packet`. -/
def route (demux : QuicPacketDemux) (dcidFromPacket : Bytes → ℕ → Option (ℕ × ℕ))
    (buf _srcAddr : Bytes) : ℤ :=
  if demux.workers.isEmpty then -1
  else
    match dcidFromPacket buf kServerCidLen with
    | none => -1
    | some (off, cidLen) =>
      if cidLen = 0 then -1
      else
        let key := (buf.drop off).take cidLen
        match demux.cidToWorker key with
        | some worker => worker
        | none =>
          -- a routing byte, or the first byte of an id that a client chose
          if (buf.getD off 0).toNat < demux.workers.length then (buf.getD off 0).toNat
          else ((fnv1a key).toNat % demux.workers.length : ℕ)

/-- The engine that a received datagram is posted to. -/
def onPacket (demux : QuicPacketDemux) (dcidFromPacket : Bytes → ℕ → Option (ℕ × ℕ))
    (buf srcAddr : Bytes) : Option ℕ :=
  let w := demux.route dcidFromPacket buf srcAddr
  if w < 0 ∨ demux.workers.length ≤ w then none else demux.workers[w.toNat]?

end QuicPacketDemux

namespace QuicServerEngine

/-- The callback `ea_generate_scid`; all bytes but the first come from the generator. -/
def generateScid (engine : QuicServerEngine) (random : UInt8) (rest : Bytes) : Bytes :=
  (if 0 ≤ engine.workerIdx then UInt8.ofInt engine.workerIdx else random) :: rest

/-- `on_new_scids_cb`. -/
def onNewScidsCb (engine : QuicServerEngine) (cids : List Bytes) (demux : QuicPacketDemux) :
    QuicPacketDemux :=
  cids.foldl (fun demux cid => demux.registerCid cid engine.workerIdx) demux

/-- `on_old_scids_cb`. -/
def onOldScidsCb (cids : List Bytes) (demux : QuicPacketDemux) : QuicPacketDemux :=
  cids.foldl QuicPacketDemux.removeCid demux

end QuicServerEngine

/-- The demux and the engines of all workers. -/
structure QuicIngress where
  demux : QuicPacketDemux := {}
  engines : List QuicServerEngine := []

namespace QuicIngress

/-- `ProxyCore::start_quic` for one more worker. -/
def startQuic (ingress : QuicIngress) : QuicIngress :=
  let (demux, workerIdx) := ingress.demux.addWorker ingress.engines.length
  { demux, engines := ingress.engines ++ [{ workerIdx }] }

/-- All workers have been registered and nothing has been received. -/
def start (n : ℕ) : QuicIngress := startQuic^[n] {}

/-- What can happen. -/
inductive Event where
  | generateScid (engine : ℕ) (random : UInt8) (rest : Bytes)
  | newScids (engine : ℕ) (cids : List Bytes)
  | oldScids (engine : ℕ) (cids : List Bytes)
  | datagram (buf srcAddr : Bytes)

/-- What is recorded. -/
inductive Record where
  | generated (engine : ℕ) (scid : Bytes)
  /-- A datagram, and the engine that it is posted to. -/
  | arrived (buf srcAddr : Bytes) (engine : Option ℕ)
  deriving DecidableEq

/-- One event. -/
def step (dcidFromPacket : Bytes → ℕ → Option (ℕ × ℕ)) (ingress : QuicIngress) :
    Event → Option (QuicIngress × List Record)
  | .generateScid i random rest =>
    ingress.engines[i]?.map fun engine =>
      let scid := engine.generateScid random rest
      ({ ingress with
          engines := ingress.engines.set i
            { engine with generated := engine.generated ++ [scid] } },
        [.generated i scid])
  | .newScids i cids =>
    ingress.engines[i]?.map fun engine =>
      ({ ingress with demux := engine.onNewScidsCb cids ingress.demux }, [])
  | .oldScids i cids =>
    ingress.engines[i]?.map fun _ =>
      ({ ingress with demux := QuicServerEngine.onOldScidsCb cids ingress.demux }, [])
  | .datagram buf srcAddr =>
    some (ingress, [.arrived buf srcAddr (ingress.demux.onPacket dcidFromPacket buf srcAddr)])

/-- lsquic reports as new only connection ids that it has had from the same engine. -/
def ReportsOwn (ingress : QuicIngress) : Event → Prop
  | .newScids i cids => ∀ engine ∈ ingress.engines[i]?, ∀ cid ∈ cids, cid ∈ engine.generated
  | _ => True

instance (ingress : QuicIngress) : ∀ event, Decidable (ingress.ReportsOwn event)
  | .newScids i cids =>
    inferInstanceAs (Decidable (∀ engine ∈ ingress.engines[i]?, ∀ cid ∈ cids, _))
  | .generateScid _ _ _ | .oldScids _ _ | .datagram _ _ => .isTrue trivial

/-- `lsquic_dcid_from_packet` returns where the destination connection id of a packet is. -/
structure FindsDcid (dcidFromPacket : Bytes → ℕ → Option (ℕ × ℕ))
    (dcidOf : Bytes → Option Bytes) : Prop where
  within : ∀ {buf off cidLen}, dcidFromPacket buf kServerCidLen = some (off, cidLen) →
    off + cidLen ≤ buf.length
  finds : ∀ buf, (dcidFromPacket buf kServerCidLen).map
    (fun place => (buf.drop place.1).take place.2) = dcidOf buf

/-! ## Where a connection id belongs -/

/-- The worker that a destination connection id alone determines. -/
def home (n : ℕ) : Option Bytes → ℤ
  | some (first :: rest) =>
    if n = 0 then -1
    else if first.toNat < n then first.toNat
    else ((fnv1a (first :: rest)).toNat % n : ℕ)
  | _ => -1

/-- The engine that receives the packets with a destination connection id. -/
def receiver (n : ℕ) (dcid : Option Bytes) : Option ℕ :=
  if home n dcid < 0 then none else some (home n dcid).toNat

variable {n : ℕ} {dcidOf : Bytes → Option Bytes} {dcidFromPacket : Bytes → ℕ → Option (ℕ × ℕ)}

theorem home_routingByte (atMost : n ≤ 256) {i : ℕ} (registered : i < n) (rest : Bytes) :
    home n (some (UInt8.ofNat i :: rest)) = i := by
  have byte : (UInt8.ofNat i).toNat = i := by
    rw [UInt8.toNat_ofNat', Nat.mod_eq_of_lt]
    omega
  rw [home, if_neg (by omega), byte, if_pos registered]

theorem home_lt (dcid : Option Bytes) : home n dcid < n := by
  rcases dcid with _ | _ | ⟨first, rest⟩
  · simp only [home]
    omega
  · simp only [home]
    omega
  · rw [home]
    split_ifs with none below
    · omega
    · exact Int.ofNat_lt.mpr below
    · exact Int.ofNat_lt.mpr (Nat.mod_lt _ (Nat.pos_of_ne_zero none))

theorem receiver_routingByte (atMost : n ≤ 256) {i : ℕ} (registered : i < n) (rest : Bytes) :
    receiver n (some (UInt8.ofNat i :: rest)) = some i := by
  rw [receiver, home_routingByte atMost registered, if_neg (by omega), Int.toNat_natCast]

/-! ## The table agrees with the routing bytes -/

/-- A connection id with the routing byte of a worker. -/
def RoutesTo (i : ℕ) (cid : Bytes) : Prop := ∃ rest, cid = UInt8.ofNat i :: rest

/-- Every entry of the table names the worker that its key has as routing byte. -/
def TableAgrees (n : ℕ) (table : Bytes → Option ℤ) : Prop :=
  ∀ key worker, table key = some worker → ∃ i, i < n ∧ worker = i ∧ RoutesTo i key

theorem TableAgrees.update {table : Bytes → Option ℤ} (agrees : TableAgrees n table) {key : Bytes}
    {entry : Option ℤ} (fits : ∀ worker ∈ entry, ∃ i, i < n ∧ worker = i ∧ RoutesTo i key) :
    TableAgrees n (Function.update table key entry) := by
  intro key' worker found
  by_cases same : key' = key
  · subst same
    rw [Function.update_self] at found
    exact fits worker found
  · rw [Function.update_of_ne same] at found
    exact agrees key' worker found

/-- The invariant of an engine. -/
structure Engine (i : ℕ) (engine : QuicServerEngine) : Prop where
  workerIdx : engine.workerIdx = i
  generated : ∀ cid ∈ engine.generated, RoutesTo i cid

/-- What holds of the demux and of `n` engines at any time. -/
structure Affine (n : ℕ) (ingress : QuicIngress) : Prop where
  workers : ingress.demux.workers = List.range n
  engines : ingress.engines.length = n
  engine : ∀ i engine, ingress.engines[i]? = some engine → Engine i engine
  table : TableAgrees n ingress.demux.cidToWorker

theorem affine_start (n : ℕ) : Affine n (start n) := by
  induction n with
  | zero =>
    refine ⟨rfl, rfl, ?_, ?_⟩
    · intro i engine found
      cases found
    · intro key worker found
      cases found
  | succ n ih =>
    rw [start, Function.iterate_succ_apply', ← start]
    refine ⟨?_, ?_, ?_, ?_⟩
    · simp only [startQuic, QuicPacketDemux.addWorker, ih.workers, ih.engines,
        List.range_succ]
    · simp only [startQuic, List.length_append, ih.engines, List.length_singleton]
    · intro i engine found
      rcases Nat.lt_or_ge i (start n).engines.length with old | new
      · rw [startQuic, List.getElem?_append_left old] at found
        exact ih.engine i engine found
      · rw [startQuic, List.getElem?_append_right new] at found
        rcases List.getElem?_eq_some_iff.mp found with ⟨bound, rfl⟩
        have last : i = n := by
          rw [ih.engines] at new bound
          simp only [List.length_singleton] at bound
          omega
        refine ⟨?_, ?_⟩
        · simp only [List.getElem_singleton, QuicPacketDemux.addWorker, ih.workers,
            List.length_range, last]
        · intro cid isGenerated
          simp only [List.getElem_singleton, List.not_mem_nil] at isGenerated
    · intro key worker found
      rcases ih.table key worker found with ⟨i, registered, isWorker, routes⟩
      exact ⟨i, Nat.lt_succ_of_lt registered, isWorker, routes⟩

theorem ofInt_natCast (i : ℕ) : UInt8.ofInt i = UInt8.ofNat i := by
  have same : ((i : ℤ) % 2 ^ 8).toNat = i % UInt8.size := by
    rw [UInt8.size]
    omega
  rw [UInt8.ofInt, same, UInt8.ofNat_mod_size]

variable {engine : QuicServerEngine}

theorem Engine.routesTo_generateScid {i : ℕ} (isEngine : Engine i engine) (random : UInt8)
    (rest : Bytes) : RoutesTo i (engine.generateScid random rest) := by
  refine ⟨rest, ?_⟩
  rw [QuicServerEngine.generateScid, isEngine.workerIdx, if_pos (Int.natCast_nonneg i),
    ofInt_natCast]

variable {ingress : QuicIngress}

theorem Affine.lt (affine : Affine n ingress) {i : ℕ} (found : ingress.engines[i]? = some engine) :
    i < n := by
  rcases List.getElem?_eq_some_iff.mp found with ⟨bound, -⟩
  exact affine.engines ▸ bound

theorem Affine.generate (affine : Affine n ingress) {i : ℕ}
    (found : ingress.engines[i]? = some engine) {scid : Bytes} (routes : RoutesTo i scid) :
    Affine n { ingress with
      engines := ingress.engines.set i
        { engine with generated := engine.generated ++ [scid] } } := by
  refine ⟨affine.workers, ?_, ?_, affine.table⟩
  · rw [List.length_set, affine.engines]
  · intro j other isOther
    by_cases same : i = j
    · subst same
      rw [List.getElem?_set_self (affine.engines ▸ affine.lt found)] at isOther
      cases isOther
      refine ⟨(affine.engine i engine found).workerIdx, ?_⟩
      intro cid isGenerated
      rcases List.mem_append.mp isGenerated with old | new
      · exact (affine.engine i engine found).generated cid old
      · rw [List.mem_singleton.mp new]
        exact routes
    · rw [List.getElem?_set_ne same] at isOther
      exact affine.engine j other isOther

theorem Affine.register (affine : Affine n ingress) {i : ℕ}
    (found : ingress.engines[i]? = some engine) (cids : List Bytes)
    (own : ∀ cid ∈ cids, cid ∈ engine.generated) :
    Affine n { ingress with demux := engine.onNewScidsCb cids ingress.demux } := by
  have isEngine := affine.engine i engine found
  induction cids generalizing ingress with
  | nil => exact affine
  | cons cid cids ih =>
    have registered : Affine n { ingress with
        demux := ingress.demux.registerCid cid engine.workerIdx } := by
      refine ⟨affine.workers, affine.engines, affine.engine, ?_⟩
      apply affine.table.update
      rintro worker ⟨⟩
      exact ⟨i, affine.lt found, isEngine.workerIdx,
        isEngine.generated cid (own cid List.mem_cons_self)⟩
    exact ih registered found (fun other isOther => own other (List.mem_cons_of_mem _ isOther))

theorem Affine.remove (affine : Affine n ingress) (cids : List Bytes) :
    Affine n { ingress with demux := QuicServerEngine.onOldScidsCb cids ingress.demux } := by
  induction cids generalizing ingress with
  | nil => exact affine
  | cons cid cids ih =>
    have removed : Affine n { ingress with demux := ingress.demux.removeCid cid } := by
      refine ⟨affine.workers, affine.engines, affine.engine, ?_⟩
      apply affine.table.update
      rintro worker ⟨⟩
    exact ih removed

/-- The table sends every id it knows where the id alone would send it. -/
def Homed (n : ℕ) (table : Bytes → Option ℤ) : Prop :=
  ∀ key worker, table key = some worker → worker = home n (some key)

theorem TableAgrees.homed {table : Bytes → Option ℤ} (agrees : TableAgrees n table)
    (atMost : n ≤ 256) : Homed n table := by
  intro key worker found
  rcases agrees key worker found with ⟨i, registered, rfl, rest, rfl⟩
  exact (home_routingByte atMost registered rest).symm

theorem Homed.route_eq {demux : QuicPacketDemux} (homed : Homed n demux.cidToWorker)
    (workers : demux.workers = List.range n) (findsDcid : FindsDcid dcidFromPacket dcidOf)
    (buf srcAddr : Bytes) : demux.route dcidFromPacket buf srcAddr = home n (dcidOf buf) := by
  rw [← findsDcid.finds buf, QuicPacketDemux.route, workers]
  by_cases noWorker : n = 0
  · subst noWorker
    rcases (dcidFromPacket buf kServerCidLen).map _ with _ | _ | ⟨first, rest⟩
    · rfl
    · rfl
    · rfl
  · rw [if_neg (by simpa using noWorker), List.length_range]
    rcases parsed : dcidFromPacket buf kServerCidLen with _ | ⟨off, cidLen⟩
    · rfl
    · have within := findsDcid.within parsed
      simp only [Option.map_some]
      by_cases empty : cidLen = 0
      · rw [if_pos empty, empty, List.take_zero, home]
        simp
      · rw [if_neg empty]
        have bound : off < buf.length := by omega
        rcases cidLen with _ | cidLen
        · exact absurd rfl empty
        · rw [List.drop_eq_getElem_cons bound, List.take_succ_cons,
            List.getD_eq_getElem _ _ bound]
          rcases entry : demux.cidToWorker _ with _ | worker
          · simp only [home, if_neg noWorker]
          · exact homed _ _ entry

theorem Homed.onPacket_eq {demux : QuicPacketDemux} (homed : Homed n demux.cidToWorker)
    (workers : demux.workers = List.range n) (findsDcid : FindsDcid dcidFromPacket dcidOf)
    (buf srcAddr : Bytes) :
    demux.onPacket dcidFromPacket buf srcAddr = receiver n (dcidOf buf) := by
  have below := home_lt (n := n) (dcidOf buf)
  rw [receiver, QuicPacketDemux.onPacket, homed.route_eq workers findsDcid, workers,
    List.length_range]
  by_cases dropped : home n (dcidOf buf) < 0
  · rw [if_pos dropped, if_pos (Or.inl dropped)]
  · rw [if_neg dropped, if_neg (by omega), List.getElem?_range (by omega)]

theorem Affine.route_eq (affine : Affine n ingress) (atMost : n ≤ 256)
    (findsDcid : FindsDcid dcidFromPacket dcidOf) (buf srcAddr : Bytes) :
    ingress.demux.route dcidFromPacket buf srcAddr = home n (dcidOf buf) :=
  (affine.table.homed atMost).route_eq affine.workers findsDcid buf srcAddr

theorem Affine.onPacket_eq (affine : Affine n ingress) (atMost : n ≤ 256)
    (findsDcid : FindsDcid dcidFromPacket dcidOf) (buf srcAddr : Bytes) :
    ingress.demux.onPacket dcidFromPacket buf srcAddr =
      receiver n (dcidOf buf) :=
  (affine.table.homed atMost).onPacket_eq affine.workers findsDcid buf srcAddr

/-! ## Whole runs -/

/-- Connection ids carry their engine's routing byte, and packets go where their id belongs. -/
def Faithful (n : ℕ) (dcidOf : Bytes → Option Bytes) : Record → Prop
  | .generated i scid => i < n ∧ RoutesTo i scid
  | .arrived buf _ engine => engine = receiver n (dcidOf buf)

theorem Affine.step {ingress next : QuicIngress} {event : Event} {records : List Record}
    (affine : Affine n ingress) (atMost : n ≤ 256) (findsDcid : FindsDcid dcidFromPacket dcidOf)
    (own : ingress.ReportsOwn event)
    (taken : ingress.step dcidFromPacket event = some (next, records)) :
    Affine n next ∧ ∀ record ∈ records, Faithful n dcidOf record := by
  cases event with
  | generateScid i random rest =>
    rcases Option.map_eq_some_iff.mp taken with ⟨engine, found, ⟨⟩⟩
    have routes := (affine.engine i engine found).routesTo_generateScid random rest
    refine ⟨affine.generate found routes, ?_⟩
    rintro record (_ | ⟨_, ⟨⟩⟩)
    exact ⟨affine.lt found, routes⟩
  | newScids i cids =>
    rcases Option.map_eq_some_iff.mp taken with ⟨engine, found, ⟨⟩⟩
    refine ⟨affine.register found cids (own engine found), ?_⟩
    rintro record ⟨⟩
  | oldScids i cids =>
    rcases Option.map_eq_some_iff.mp taken with ⟨engine, found, ⟨⟩⟩
    refine ⟨affine.remove cids, ?_⟩
    rintro record ⟨⟩
  | datagram buf srcAddr =>
    cases taken
    refine ⟨affine, ?_⟩
    rintro record (_ | ⟨_, ⟨⟩⟩)
    exact affine.onPacket_eq atMost findsDcid buf srcAddr

theorem affine_of_runs (atMost : n ≤ 256) (findsDcid : FindsDcid dcidFromPacket dcidOf)
    {trace : List Record} (runs : Runs (step dcidFromPacket) ReportsOwn (start n) trace ingress) :
    (∀ record ∈ trace, Faithful n dcidOf record) ∧ Affine n ingress := by
  refine Runs.forall_mem (affine_start n) ?_ runs
  intro ingress input next records affine own taken
  exact (affine.step atMost findsDcid own taken).symm

/--
In every run a packet is routed by its destination connection id and the number of workers
alone.  So the packets that have the id of a packet that an engine received, or an id that
this engine generates at any time, are all received by this engine.
-/
theorem connection_affinity (atMost : n ≤ 256) (findsDcid : FindsDcid dcidFromPacket dcidOf)
    {trace : List Record} {ingress : QuicIngress}
    (runs : Runs (step dcidFromPacket) ReportsOwn (start n) trace ingress) :
    (∀ buf srcAddr, ingress.demux.route dcidFromPacket buf srcAddr = home n (dcidOf buf)) ∧
      ∀ first firstAddr owner, .arrived first firstAddr (some owner) ∈ trace →
        ∀ buf srcAddr engine, .arrived buf srcAddr engine ∈ trace →
          (dcidOf buf = dcidOf first ∨
            ∃ scid, dcidOf buf = some scid ∧ .generated owner scid ∈ trace) →
          engine = some owner := by
  rcases affine_of_runs atMost findsDcid runs with ⟨faithful, affine⟩
  refine ⟨affine.route_eq atMost findsDcid, ?_⟩
  intro first firstAddr owner received buf srcAddr engine arrived belongs
  have isReceiver : engine = receiver n (dcidOf buf) := faithful _ arrived
  rcases belongs with sameId | ⟨scid, isScid, generated⟩
  · rw [isReceiver, sameId]
    exact (faithful _ received).symm
  · rcases faithful _ generated with ⟨registered, rest, rfl⟩
    rw [isReceiver, isScid, receiver_routingByte atMost registered]

/-- The place of the connection id in packets with a short header. -/
def shortHeader (buf : Bytes) (cidLen : ℕ) : Option (ℕ × ℕ) :=
  if 1 + cidLen ≤ buf.length then some (1, cidLen) else none

/-- A connection whose second id is used before it is registered and after it is retired. -/
def retiredId : List Event :=
  [.datagram [64, 8, 1, 2, 3, 4, 5, 6, 7] (ascii "a"),
    .generateScid 1 0 [8, 8, 8, 8, 8, 8, 8],
    .datagram [64, 1, 8, 8, 8, 8, 8, 8, 8] (ascii "a"),
    .newScids 1 [[1, 8, 8, 8, 8, 8, 8, 8]],
    .datagram [64, 1, 8, 8, 8, 8, 8, 8, 8] (ascii "b"),
    .oldScids 1 [[1, 8, 8, 8, 8, 8, 8, 8]],
    .datagram [64, 1, 8, 8, 8, 8, 8, 8, 8] (ascii "c")]

theorem connection_affinity_retiredId :
    ∃ trace ingress,
      Runs (step shortHeader) ReportsOwn (start 2) trace ingress ∧
        .arrived [64, 8, 1, 2, 3, 4, 5, 6, 7] (ascii "a") (some 1) ∈ trace ∧
        (∀ buf srcAddr, ingress.demux.route shortHeader buf srcAddr =
          home 2 ((shortHeader buf kServerCidLen).map
            (fun place => (buf.drop place.1).take place.2))) ∧
        ∀ engine, .arrived [64, 1, 8, 8, 8, 8, 8, 8, 8] (ascii "c") engine ∈ trace →
          engine = some 1 := by
  have reached : (run (step shortHeader)
      (fun ingress event => decide (ingress.ReportsOwn event)) (start 2) retiredId).any
        (fun last => decide (.arrived [64, 8, 1, 2, 3, 4, 5, 6, 7] (ascii "a") (some 1) ∈ last.2 ∧
          .generated 1 [1, 8, 8, 8, 8, 8, 8, 8] ∈ last.2)) = true := by
    decide +kernel
  rcases exists_runs_of_run reached with ⟨trace, ingress, runs, received, generated⟩
  have findsDcid : FindsDcid shortHeader fun buf =>
      (shortHeader buf kServerCidLen).map (fun place => (buf.drop place.1).take place.2) := by
    refine ⟨?_, fun _ => rfl⟩
    intro buf off cidLen found
    rw [shortHeader, Option.ite_none_right_eq_some] at found
    rcases found with ⟨bound, ⟨⟩⟩
    exact bound
  rcases connection_affinity (by decide) findsDcid runs with ⟨routes, affinity⟩
  refine ⟨trace, ingress, runs, received, routes, ?_⟩
  intro engine arrived
  exact affinity _ _ _ received _ _ _ arrived (Or.inr ⟨_, rfl, generated⟩)

end QuicIngress

end ReverseProxy
