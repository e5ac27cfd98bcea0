import ReverseProxy.Transport.QuicDemux

/-!
# Steering QUIC packets in the kernel

`quic_steer` (`ebpf/quic_steer.bpf.c`) picks the socket of a worker from the bytes of
an IPv4 packet, where `QuicPacketDemux::route` picks the worker from the UDP payload
and the table of connection ids.  A pointer into the packet is the list of the bytes
from there to `data_end`; reading at or past `data_end` is `none`.
-/

namespace ReverseProxy

open Machine Text

namespace QuicSteer

/-- The number of workers. -/
def N_WORKERS : ℕ := 4
/-- The length of connection ids. -/
def SCID_LEN : ℕ := 8

/-- What the program decides. -/
inductive Verdict where
  /-- `SK_DROP`. -/
  | drop
  /-- `bpf_sk_select_reuseport` with the index of a socket. -/
  | select (idx : ℕ)
  deriving DecidableEq, Repr

/-- The routing byte and the fallback for the QUIC packet at `q`, sums being those of `__u8`. -/
def routing (q : Bytes) : Option (UInt8 × UInt8) := do
  let b0 ← q[0]?
  -- what `bpf_printk` is given
  let _ ← q[6]?
  let _ ← q[7]?
  if b0 &&& 0x80 = 0 then do
    let q1 ← q[1]?
    let q2 ← q[2]?
    some (q1, q1 + q2)
  else do
    let q1 ← q[1]?
    let q2 ← q[2]?
    let q3 ← q[3]?
    let q4 ← q[4]?
    if q1 ||| q2 ||| q3 ||| q4 = 0 then some (0xff, 0)
    else do
      let dcil ← q[5]?
      if 1 ≤ dcil ∧ dcil ≤ 20 ∧ 6 + dcil.toNat ≤ q.length then do
        let q6 ← q[6]?
        some (q6, q6 + dcil)
      else some (0xff, 0)

/-- The index of the socket: the routing byte where it names a worker. -/
def index (rb h : UInt8) : ℕ :=
  if rb.toNat < N_WORKERS then rb.toNat else h.toNat % N_WORKERS

theorem index_lt (rb h : UInt8) : index rb h < N_WORKERS := by
  unfold index
  split_ifs with isWorker
  · exact isWorker
  · exact Nat.mod_lt _ (by decide)

/-- `quic_steer` on a packet; `none` if it reads outside of it. -/
def quicSteer (p : Bytes) : Option Verdict :=
  if p.length < 20 then some .drop
  else do
    let p0 : UInt8 ← p[0]?
    if p0 >>> 4 ≠ 4 ∨ p0 &&& 0x0f < 5 then some .drop
    else do
      let p9 : UInt8 ← p[9]?
      if p9 ≠ 17 then some .drop
      else
        let q := p.drop ((p0 &&& 0x0f).toNat * 4 + 8)
        if q.length < 1 + SCID_LEN then some .drop
        else do
          let bytes ← routing q
          some (.select (index bytes.1 bytes.2))

/-! ## Reads and results -/

theorem exists_getElem? {text : Bytes} {i : ℕ} (inside : i < text.length) :
    ∃ byte, text[i]? = some byte :=
  ⟨text[i], List.getElem?_eq_getElem inside⟩

/-- All reads are inside a packet of nine bytes or more. -/
theorem exists_routing {q : Bytes} (enough : 9 ≤ q.length) : ∃ bytes, routing q = some bytes := by
  have read : ∀ i, i < 9 → ∃ byte, q[i]? = some byte := fun i small =>
    exists_getElem? (by omega)
  rcases read 0 (by omega) with ⟨b0, is0⟩
  rcases read 1 (by omega) with ⟨b1, is1⟩
  rcases read 2 (by omega) with ⟨b2, is2⟩
  rcases read 3 (by omega) with ⟨b3, is3⟩
  rcases read 4 (by omega) with ⟨b4, is4⟩
  rcases read 5 (by omega) with ⟨b5, is5⟩
  rcases read 6 (by omega) with ⟨b6, is6⟩
  rcases read 7 (by omega) with ⟨b7, is7⟩
  unfold routing
  simp only [is0, is1, is2, is3, is4, is5, is6, is7, Option.bind_eq_bind, Option.bind_some]
  split_ifs
  · exact ⟨_, rfl⟩
  · exact ⟨_, rfl⟩
  · exact ⟨_, rfl⟩
  · exact ⟨_, rfl⟩

/-- No packet makes the program read outside of it, or select a socket there is not. -/
theorem exists_quicSteer (p : Bytes) :
    ∃ verdict, quicSteer p = some verdict ∧ ∀ idx, verdict = .select idx → idx < N_WORKERS := by
  unfold quicSteer
  split_ifs with short
  · exact ⟨.drop, rfl, by simp⟩
  rcases exists_getElem? (show 0 < p.length by omega) with ⟨p0, is0⟩
  rcases exists_getElem? (show 9 < p.length by omega) with ⟨p9, is9⟩
  simp only [is0, is9, Option.bind_eq_bind, Option.bind_some]
  split_ifs with notIpv4 notUdp noQuic
  · exact ⟨.drop, rfl, by simp⟩
  · exact ⟨.drop, rfl, by simp⟩
  · exact ⟨.drop, rfl, by simp⟩
  · rcases exists_routing (q := p.drop _) (not_lt.mp noQuic) with ⟨bytes, taken⟩
    rw [taken]
    refine ⟨_, rfl, ?_⟩
    intro idx selected
    obtain rfl := Verdict.select.inj selected
    exact index_lt _ _

/-! ## QUIC packets in IPv4 packets -/

/-- An IPv4 packet with a header of `ihl` words, and the payload of the UDP datagram in it. -/
structure Ipv4Udp (packet payload : Bytes) (ihl : ℕ) : Prop where
  legal : 5 ≤ ihl ∧ ihl ≤ 15
  parts : ∃ ip udp, packet = ip ++ udp ++ payload ∧ ip.length = 4 * ihl ∧ udp.length = 8 ∧
    ip[0]? = some (UInt8.ofNat (64 + ihl)) ∧ ip[9]? = some 17

/--
The destination connection id of a packet, where RFC 8999 puts it: a short header
has one of the length that the server issues, a long header states the length.
-/
inductive Destination : Bytes → Bytes → Prop where
  | short {first : UInt8} {dcid rest : Bytes} (form : first &&& 0x80 = 0)
      (length : dcid.length = SCID_LEN) : Destination (first :: (dcid ++ rest)) dcid
  | long {first v1 v2 v3 v4 dcil : UInt8} {dcid rest : Bytes} (form : first &&& 0x80 ≠ 0)
      (version : v1 ||| v2 ||| v3 ||| v4 ≠ 0) (length : dcid.length = dcil.toNat)
      (legal : 1 ≤ dcil ∧ dcil ≤ 20) :
      Destination (first :: v1 :: v2 :: v3 :: v4 :: dcil :: (dcid ++ rest)) dcid

theorem firstByte_facts : ∀ ihl : Fin 16, 5 ≤ ihl.val →
    UInt8.ofNat (64 + ihl.val) >>> 4 = 4 ∧ ¬UInt8.ofNat (64 + ihl.val) &&& 0x0f < 5 ∧
      (UInt8.ofNat (64 + ihl.val) &&& 0x0f).toNat = ihl.val := by
  decide

/-- Behind a legal IPv4 header, whatever its options, the program finds the QUIC packet. -/
theorem quicSteer_eq_of_ipv4Udp {packet payload : Bytes} {ihl : ℕ}
    (carried : Ipv4Udp packet payload ihl) (enough : 9 ≤ payload.length) :
    quicSteer packet =
      (routing payload).map fun bytes => .select (index bytes.1 bytes.2) := by
  rcases carried with ⟨legal, ip, udp, rfl, ipLength, udpLength, is0, is9⟩
  rcases firstByte_facts ⟨ihl, by omega⟩ legal.1 with ⟨version, long, words⟩
  have read0 : (ip ++ udp ++ payload)[0]? = some (UInt8.ofNat (64 + ihl)) := by
    rw [List.append_assoc, List.getElem?_append_left (by omega), is0]
  have read9 : (ip ++ udp ++ payload)[9]? = some 17 := by
    rw [List.append_assoc, List.getElem?_append_left (by omega), is9]
  have quic : (ip ++ udp ++ payload).drop (ihl * 4 + 8) = payload := by
    apply List.drop_left'
    rw [List.length_append]
    omega
  unfold quicSteer
  rw [if_neg (by simp only [List.length_append]; omega), read0, read9]
  simp only [Option.bind_eq_bind, Option.bind_some, version, long, words, quic, ne_eq,
    not_true_eq_false, or_self, if_false]
  rw [if_neg (by rw [SCID_LEN]; omega)]
  cases routing payload with
  | none => rfl
  | some bytes => rfl

/-- The routing byte is the first byte of the destination connection id. -/
theorem routing_of_destination {payload dcid : Bytes} (destined : Destination payload dcid)
    (enough : 9 ≤ payload.length) :
    ∃ first rest h, dcid = first :: rest ∧ routing payload = some (first, h) := by
  rcases exists_getElem? (show 6 < payload.length by omega) with ⟨b6, is6⟩
  rcases exists_getElem? (show 7 < payload.length by omega) with ⟨b7, is7⟩
  cases destined with
  | short form length =>
    rename_i first rest
    rcases dcid with _ | ⟨d1, _ | ⟨d2, dcid⟩⟩
    · simp [SCID_LEN] at length
    · simp [SCID_LEN] at length
    · refine ⟨d1, d2 :: dcid, d1 + d2, rfl, ?_⟩
      unfold routing
      rw [is6, is7]
      simp [form]
  | long form version length legal =>
    rename_i first v1 v2 v3 v4 dcil rest
    rcases dcid with _ | ⟨d1, dcid⟩
    · have positive : 1 ≤ dcil.toNat := UInt8.le_iff_toNat_le.mp legal.1
      simp only [List.length_nil] at length
      omega
    · refine ⟨d1, dcid, d1 + dcil, rfl, ?_⟩
      unfold routing
      rw [is7]
      have inside : 6 + dcil.toNat ≤
          (first :: v1 :: v2 :: v3 :: v4 :: dcil :: (d1 :: dcid ++ rest)).length := by
        simp only [List.length_cons, List.length_append] at length ⊢
        omega
      simp only [List.getElem?_cons_zero, List.getElem?_cons_succ, List.cons_append, form,
        version, legal, true_and, if_false, Option.bind_eq_bind, Option.bind_some]
      exact if_pos inside

end QuicSteer

/-! ## The tables that can be reached -/

namespace QuicIngress

/--
lsquic reports as new the connection ids that it has had from the same engine, and
ids that clients chose, under which packets have arrived at this engine.
-/
def Reports (dcidOf : Bytes → Option Bytes) (state : QuicIngress × List Record) :
    Event → Prop
  | .newScids i cids =>
    ∀ engine ∈ state.1.engines[i]?, ∀ cid ∈ cids, cid ∈ engine.generated ∨
      ∃ buf srcAddr, .arrived buf srcAddr (some i) ∈ state.2 ∧ dcidOf buf = some cid
  | _ => True

variable {n : ℕ} {dcidOf : Bytes → Option Bytes} {dcidFromPacket : Bytes → ℕ → Option (ℕ × ℕ)}

/-- The demux before anything is registered, with the engines as they are. -/
def withoutTable (ingress : QuicIngress) : QuicIngress :=
  { ingress with demux := { ingress.demux with cidToWorker := fun _ => none } }

/-- What holds of the demux and of the engines when ids chosen by clients are registered, too. -/
structure Settled (n : ℕ) (ingress : QuicIngress) : Prop where
  affine : Affine n (withoutTable ingress)
  table : Homed n ingress.demux.cidToWorker

variable {ingress : QuicIngress}

theorem Affine.settled (affine : Affine n ingress) (atMost : n ≤ 256) : Settled n ingress := by
  refine ⟨⟨affine.workers, affine.engines, affine.engine, ?_⟩, affine.table.homed atMost⟩
  intro key worker found
  cases found

theorem Homed.update {table : Bytes → Option ℤ} (homed : Homed n table) {key : Bytes}
    {entry : Option ℤ} (fits : ∀ worker ∈ entry, worker = home n (some key)) :
    Homed n (Function.update table key entry) := by
  intro key' worker found
  by_cases same : key' = key
  · subst same
    rw [Function.update_self] at found
    exact fits worker found
  · rw [Function.update_of_ne same] at found
    exact homed key' worker found

/-- An id that the engine generated or that a packet reached it under has its home there. -/
theorem Settled.home_eq (settled : Settled n ingress) (atMost : n ≤ 256) {log : List Record}
    (faithful : ∀ record ∈ log, Faithful n dcidOf record) {i : ℕ} {engine : QuicServerEngine}
    (found : ingress.engines[i]? = some engine) {cid : Bytes} (known : cid ∈ engine.generated ∨
      ∃ buf srcAddr, .arrived buf srcAddr (some i) ∈ log ∧ dcidOf buf = some cid) :
    home n (some cid) = i := by
  rcases known with generated | ⟨buf, srcAddr, arrived, isCid⟩
  · rcases (settled.affine.engine i engine found).generated cid generated with ⟨rest, rfl⟩
    exact home_routingByte atMost (settled.affine.lt found) rest
  · have isReceiver : some i = receiver n (dcidOf buf) := faithful _ arrived
    rw [isCid, receiver] at isReceiver
    split_ifs at isReceiver with dropped
    obtain rfl := Option.some.inj isReceiver
    omega

theorem Settled.register (settled : Settled n ingress) {i : ℕ} {engine : QuicServerEngine}
    (found : ingress.engines[i]? = some engine) {cids : List Bytes}
    (belong : ∀ cid ∈ cids, home n (some cid) = i) :
    Settled n { ingress with demux := engine.onNewScidsCb cids ingress.demux } := by
  have workerIdx := (settled.affine.engine i engine found).workerIdx
  induction cids generalizing ingress with
  | nil => exact settled
  | cons cid cids ih =>
    have registered : Settled n { ingress with
        demux := ingress.demux.registerCid cid engine.workerIdx } := by
      refine ⟨settled.affine, settled.table.update ?_⟩
      rintro worker ⟨⟩
      rw [workerIdx, belong cid List.mem_cons_self]
    exact ih registered found fun other isOther => belong other (List.mem_cons_of_mem _ isOther)

theorem Settled.remove (settled : Settled n ingress) (cids : List Bytes) :
    Settled n { ingress with demux := QuicServerEngine.onOldScidsCb cids ingress.demux } := by
  induction cids generalizing ingress with
  | nil => exact settled
  | cons cid cids ih =>
    have removed : Settled n { ingress with demux := ingress.demux.removeCid cid } := by
      refine ⟨settled.affine, settled.table.update ?_⟩
      rintro worker ⟨⟩
    exact ih removed

theorem Settled.route_eq (settled : Settled n ingress) (findsDcid : FindsDcid dcidFromPacket dcidOf)
    (buf srcAddr : Bytes) : ingress.demux.route dcidFromPacket buf srcAddr = home n (dcidOf buf) :=
  settled.table.route_eq settled.affine.workers findsDcid buf srcAddr

theorem Settled.step {ingress next : QuicIngress} {log records : List Record} {event : Event}
    (settled : Settled n ingress) (faithful : ∀ record ∈ log, Faithful n dcidOf record)
    (atMost : n ≤ 256) (findsDcid : FindsDcid dcidFromPacket dcidOf)
    (reports : Reports dcidOf (ingress, log) event)
    (taken : ingress.step dcidFromPacket event = some (next, records)) :
    Settled n next ∧ ∀ record ∈ records, Faithful n dcidOf record := by
  cases event with
  | generateScid i random rest =>
    rcases Option.map_eq_some_iff.mp taken with ⟨engine, found, ⟨⟩⟩
    have routes := (settled.affine.engine i engine found).routesTo_generateScid random rest
    refine ⟨⟨settled.affine.generate found routes, settled.table⟩, ?_⟩
    rintro record (_ | ⟨_, ⟨⟩⟩)
    exact ⟨settled.affine.lt found, routes⟩
  | newScids i cids =>
    rcases Option.map_eq_some_iff.mp taken with ⟨engine, found, ⟨⟩⟩
    refine ⟨settled.register found ?_, by simp⟩
    intro cid cidMem
    exact settled.home_eq atMost faithful found (reports engine found cid cidMem)
  | oldScids i cids =>
    rcases Option.map_eq_some_iff.mp taken with ⟨engine, found, ⟨⟩⟩
    exact ⟨settled.remove cids, by simp⟩
  | datagram buf srcAddr =>
    cases taken
    refine ⟨settled, ?_⟩
    rintro record (_ | ⟨_, ⟨⟩⟩)
    exact settled.table.onPacket_eq settled.affine.workers findsDcid buf srcAddr

/-- The invariant of whole runs: the state is settled and the log is that of affine routing. -/
def Recorded (n : ℕ) (dcidOf : Bytes → Option Bytes) (state : QuicIngress × List Record) : Prop :=
  Settled n state.1 ∧ ∀ record ∈ state.2, Faithful n dcidOf record

theorem recorded_of_runs (atMost : n ≤ 256) (findsDcid : FindsDcid dcidFromPacket dcidOf)
    {trace : List Record} {state : QuicIngress × List Record}
    (runs : Runs (logging (step dcidFromPacket)) (Reports dcidOf) (start n, [])
      trace state) : Recorded n dcidOf state := by
  refine Runs.state_invariant ?_ ?_ runs
  · exact ⟨(affine_start n).settled atMost, by simp⟩
  · rintro ⟨ingress, log⟩ event ⟨next, log'⟩ records ⟨settled, faithful⟩ reports taken
    rcases logging_eq_some_iff.mp taken with ⟨stepped, rfl⟩
    rcases settled.step faithful atMost findsDcid reports stepped with ⟨settled', new⟩
    exact ⟨settled', List.forall_mem_append.mpr ⟨faithful, new⟩⟩

end QuicIngress

namespace QuicSteer

open QuicIngress

/--
With four workers, in every state that the demux can reach and for every packet whose
destination connection id begins with the number of a worker, the kernel selects the
socket of the worker that the demux routes the payload to.  For any packet at all it
reads nothing outside of it and selects one of the four sockets or none.
-/
theorem quicSteer_agrees {dcidFromPacket : Bytes → ℕ → Option (ℕ × ℕ)}
    {dcidOf : Bytes → Option Bytes} (findsDcid : FindsDcid dcidFromPacket dcidOf)
    (locates : ∀ payload dcid, Destination payload dcid → dcidOf payload = some dcid)
    {trace : List Record} {state : QuicIngress × List Record}
    (runs : Runs (logging (step dcidFromPacket)) (Reports dcidOf)
      (start N_WORKERS, []) trace state) :
    (∀ packet payload dcid srcAddr ihl, Ipv4Udp packet payload ihl → 9 ≤ payload.length →
      Destination payload dcid → (∀ first ∈ dcid.head?, first < 4) →
        ∃ idx, quicSteer packet = some (.select idx) ∧
          state.1.demux.route dcidFromPacket payload srcAddr = idx) ∧
    ∀ packet, ∃ verdict, quicSteer packet = some verdict ∧
      ∀ idx, verdict = .select idx → idx < N_WORKERS := by
  refine ⟨?_, exists_quicSteer⟩
  intro packet payload dcid srcAddr ihl carried enough destined below
  rcases routing_of_destination destined enough with ⟨first, rest, h, rfl, routed⟩
  have isWorker : first.toNat < N_WORKERS := UInt8.lt_iff_toNat_lt.mp (below first (by simp))
  refine ⟨first.toNat, ?_, ?_⟩
  · rw [quicSteer_eq_of_ipv4Udp carried enough, routed, Option.map_some, index, if_pos isWorker]
  · have settled := (recorded_of_runs (by decide) findsDcid runs).1
    rw [settled.route_eq findsDcid, locates payload _ destined, home, if_neg (by decide),
      if_pos isWorker]

/-- The place that RFC 8999 gives a destination connection id. -/
def dcidPlace (buf : Bytes) (cidLen : ℕ) : Option (ℕ × ℕ) :=
  match buf[0]?, buf[5]? with
  | some first, some dcil =>
    if first &&& 0x80 = 0 then
      if 1 + cidLen ≤ buf.length then some (1, cidLen) else none
    else if 6 + dcil.toNat ≤ buf.length then some (6, dcil.toNat)
    else none
  | _, _ => none

/-- The connection id of a datagram. -/
def dcidAt (buf : Bytes) : Option Bytes :=
  (dcidPlace buf kServerCidLen).map fun place => (buf.drop place.1).take place.2

theorem findsDcid_dcidPlace : FindsDcid dcidPlace dcidAt := by
  refine ⟨?_, fun _ => rfl⟩
  intro buf off cidLen found
  unfold dcidPlace at found
  split at found
  · split_ifs at found with form inside inside
    · obtain ⟨rfl, rfl⟩ := Prod.mk.inj (Option.some.inj found)
      exact inside
    · obtain ⟨rfl, rfl⟩ := Prod.mk.inj (Option.some.inj found)
      exact inside
  · cases found

theorem dcidAt_of_destination (payload dcid : Bytes) (destined : Destination payload dcid) :
    dcidAt payload = some dcid := by
  cases destined with
  | short form length =>
    rename_i first rest
    have enough : 5 < (first :: (dcid ++ rest)).length := by
      simp only [List.length_cons, List.length_append, length, SCID_LEN]
      omega
    rcases exists_getElem? enough with ⟨b5, is5⟩
    have place : dcidPlace (first :: (dcid ++ rest)) kServerCidLen =
        some (1, SCID_LEN) := by
      simp [dcidPlace, is5, form, length, SCID_LEN, kServerCidLen]
    rw [dcidAt, place, Option.map_some, List.drop_succ_cons, List.drop_zero,
      List.take_left' length]
  | long form version length legal =>
    rename_i first v1 v2 v3 v4 dcil rest
    have place : dcidPlace (first :: v1 :: v2 :: v3 :: v4 :: dcil :: (dcid ++ rest))
        kServerCidLen = some (6, dcil.toNat) := by
      simp [dcidPlace, form, length]
      omega
    rw [dcidAt, place]
    simp [List.take_left' length]

/-- A long header with an id that a client chose, and a packet with IP options around it. -/
def chosenPayload : Bytes :=
  [0xc0, 0, 0, 0, 1, 4, 2, 9, 9, 9, 0]

/-- A packet with IPv4 options. -/
def optionsPacket : Bytes :=
  [0x46, 0, 0, 43, 0, 0, 0, 0, 64, 17, 0, 0, 127, 0, 0, 1, 127, 0, 0, 1, 1, 1, 1, 0] ++
    [4, 210, 1, 187, 0, 19, 0, 0] ++ chosenPayload

theorem quicSteer_agrees_optionsPacket :
    ∃ trace state, Runs (logging (step dcidPlace)) (Reports dcidAt)
        (start N_WORKERS, []) trace state ∧
      state.1.demux.cidToWorker [2, 9, 9, 9] = some 2 ∧
      ∃ idx, quicSteer optionsPacket = some (.select idx) ∧
        state.1.demux.route dcidPlace chosenPayload (ascii "a") = idx := by
  have arrives : Runs (logging (step dcidPlace)) (Reports dcidAt)
      (start N_WORKERS, []) [.arrived chosenPayload (ascii "a") (some 2)]
      (start N_WORKERS, [.arrived chosenPayload (ascii "a") (some 2)]) := by
    refine .snoc .refl
      (show Reports dcidAt (start N_WORKERS, []) (.datagram chosenPayload (ascii "a")) from
        trivial) ?_
    rfl
  have reports : Reports dcidAt (start N_WORKERS, [.arrived chosenPayload (ascii "a") (some 2)])
      (.newScids 2 [[2, 9, 9, 9]]) := by
    intro engine _ cid cidMem
    obtain rfl := List.mem_singleton.mp cidMem
    exact .inr ⟨chosenPayload, ascii "a", by simp, by decide⟩
  have runs := arrives.snoc reports rfl
  have carried : Ipv4Udp optionsPacket chosenPayload 6 :=
    ⟨by decide, _, _, rfl, by decide, by decide, by decide, by decide⟩
  have destined : Destination (0xc0 :: 0 :: 0 :: 0 :: 1 :: 4 :: ([2, 9, 9, 9] ++ [0]))
      [2, 9, 9, 9] := .long (by decide) (by decide) (by decide) (by decide)
  have below : ∀ first ∈ ([2, 9, 9, 9] : Bytes).head?, first < 4 := by
    rintro _ ⟨⟩
    decide
  refine ⟨_, _, runs, by decide, ?_⟩
  exact (quicSteer_agrees findsDcid_dcidPlace dcidAt_of_destination runs).1 _ _ _ _ 6 carried
    (by decide) destined below

end QuicSteer

end ReverseProxy
