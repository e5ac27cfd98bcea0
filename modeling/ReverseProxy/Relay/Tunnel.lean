import ReverseProxy.Relay.Closed
import ReverseProxy.Relay.Exchanges
import ReverseProxy.Relay.Outstanding
import ReverseProxy.Transport.WriteQueue

/-!
# Tunnels

In the bridge phase a relay copies what it reads from either stream to the other one.  Each
direction writes a chunk before it reads the next one, so that until teardown the chunks
written are those that were read; teardown can only leave some of them unwritten.
-/

namespace ReverseProxy

open Machine Text

namespace RelaySession

/-- The two ends of one direction of a tunnel. -/
def Opposite (stream : TransportStream) (src dst : Peer) : Prop :=
  src = .client ∧ dst = .backend stream ∨ src = .backend stream ∧ dst = .client

/-- The bytes read from a peer. -/
def Action.chunkFrom (peer : Peer) : Action → Option Bytes
  | .received src data => if src = peer then some data else none
  | _ => none

/-- The bytes written to a peer. -/
def Action.chunkTo (peer : Peer) : Action → Option Bytes
  | .write dst data => if dst = peer then some data else none
  | _ => none

/-- The chunks that were read from a peer. -/
def chunksFrom (peer : Peer) (actions : List Action) : List Bytes :=
  actions.filterMap (Action.chunkFrom peer)

/-- The chunks that were passed to `async_write_some` of a peer. -/
def chunksTo (peer : Peer) (actions : List Action) : List Bytes :=
  actions.filterMap (Action.chunkTo peer)

/-- What a step of a relay with a tunnel does. -/
structure Passes (stream : TransportStream) (relay after : RelaySession) : Prop where
  tunnel : ∀ op ∈ after.pending, op.CarriesOn stream
  kept : ∀ endpoint other, .release endpoint other ∉ after.out
  silent : after.done = true → ∀ action ∈ after.out, action.usesStream = false
  stays : relay.done = true → after.done = true
  copies : ∀ src dst, Opposite stream src dst →
    after.done = false → chunksTo dst after.out = chunksFrom src after.out

section Steps

variable {relay after : RelaySession} {stream : TransportStream}

theorem chunksFrom_append (peer : Peer) (first second : List Action) :
    chunksFrom peer (first ++ second) = chunksFrom peer first ++ chunksFrom peer second :=
  List.filterMap_append

theorem chunksTo_append (peer : Peer) (first second : List Action) :
    chunksTo peer (first ++ second) = chunksTo peer first ++ chunksTo peer second :=
  List.filterMap_append

/-- Nothing is written without using the stream. -/
theorem chunksTo_eq_nil {actions : List Action}
    (silent : ∀ action ∈ actions, action.usesStream = false) (peer : Peer) :
    chunksTo peer actions = [] := by
  rw [chunksTo, List.filterMap_eq_nil_iff]
  intro action actionMem
  have unused := silent action actionMem
  cases action with
  | write dst data => simp [Action.usesStream] at unused
  | _ => rfl

theorem silent_teardownActions : ∀ action ∈ relay.teardownActions, action.usesStream = false := by
  intro action actionMem
  rw [teardownActions, closeActions, List.mem_append, List.mem_cons] at actionMem
  rcases actionMem with changes | rfl | closes
  · split at changes
    · simp at changes
    · rw [List.mem_singleton] at changes
      rw [changes]
      rfl
  · rfl
  · cases held : relay.backend with
    | none => simp [held] at closes
    | some stream =>
      simp only [held, Option.map_some, Option.toList_some, List.mem_singleton] at closes
      rw [closes]
      rfl

theorem done_teardown (relay : RelaySession) : relay.teardown.done = true := by
  cases running : relay.done with
  | true => rw [teardown_of_done _ running, running]
  | false => rw [teardown_eq _ running]

/-- Teardown ends a tunnel. -/
theorem passes_teardown {before : RelaySession} (tunnel : ∀ op ∈ relay.pending, op.CarriesOn stream)
    (silent : ∀ action ∈ relay.out, action.usesStream = false)
    (kept : ∀ endpoint other, .release endpoint other ∉ relay.out) :
    Passes stream before relay.teardown := by
  refine ⟨?_, ?_, ?_, ?_, ?_⟩
  · rw [pending_teardown]
    exact tunnel
  · intro endpoint other released
    cases running : relay.done with
    | true =>
      rw [teardown_of_done _ running] at released
      exact kept endpoint other released
    | false =>
      rw [teardown_eq _ running] at released
      rcases List.mem_append.mp released with earlier | now
      · exact kept endpoint other earlier
      · have quiet := (streamless_teardownActions relay _ now).1
        simp [Action.streams] at quiet
  · intro _
    refine teardown_cases relay (fun _ => ?_) fun _ => ?_
    · exact silent
    · exact List.forall_mem_append.mpr ⟨silent, silent_teardownActions⟩
  · exact fun _ => done_teardown relay
  · intro src dst _ running
    simp [done_teardown relay] at running

theorem release_notMem_arrivals (op : Op) (completion : Completion) :
    ∀ endpoint other, .release endpoint other ∉ arrivals op completion := by
  unfold arrivals
  split
  · split <;> simp
  · simp

/-- A step in which nothing is read or written. -/
theorem passes_silent (tunnel : ∀ op ∈ after.pending, op.CarriesOn stream)
    (same : after.done = relay.done) (silent : ∀ action ∈ after.out, action.usesStream = false)
    (kept : ∀ endpoint other, .release endpoint other ∉ after.out)
    (unread : ∀ peer data, .received peer data ∉ after.out) : Passes stream relay after := by
  refine ⟨tunnel, kept, fun _ => silent, fun done => same.trans done, ?_⟩
  intro src dst _ _
  have nothing : chunksFrom src after.out = [] := by
    rw [chunksFrom, List.filterMap_eq_nil_iff]
    intro action actionMem
    cases action with
    | received peer data => exact absurd actionMem (unread peer data)
    | _ => rfl
  rw [chunksTo_eq_nil silent, nothing]

/-- The two directions of a tunnel have different ends. -/
theorem Opposite.eq_iff {src dst src' dst' : Peer} (opposite : Opposite stream src dst)
    (opposite' : Opposite stream src' dst') : src' = src ↔ dst' = dst := by
  rcases opposite with ⟨rfl, rfl⟩ | ⟨rfl, rfl⟩ <;> rcases opposite' with ⟨rfl, rfl⟩ | ⟨rfl, rfl⟩ <;>
    simp

theorem Op.CarriesOn.opposite {op : Op} {src dst : Peer} (carriesOn : op.CarriesOn stream)
    (carries : op.Carries src dst) : Opposite stream src dst := by
  rcases carries with rfl | rfl <;> rcases carriesOn with (up | up) | (down | down) <;>
    simp_all [Opposite]

theorem Directions.stream_eq {other : TransportStream} {left : Op} {src dst : Peer}
    (directions : Directions other left src dst) (opposite : Opposite stream src dst) :
    other = stream := by
  rcases directions with ⟨rfl, rfl, -⟩ | ⟨rfl, rfl, -⟩ <;>
    rcases opposite with ⟨isSrc, isDst⟩ | ⟨isSrc, isDst⟩ <;> simp_all

theorem chunksFrom_forward (peer src dst : Peer) (data : Bytes) :
    chunksFrom peer [.received src data, .write dst data] = if src = peer then [data] else [] := by
  by_cases isSrc : src = peer <;> simp [chunksFrom, Action.chunkFrom, isSrc, List.filterMap_cons]

theorem chunksTo_forward (peer src dst : Peer) (data : Bytes) :
    chunksTo peer [.received src data, .write dst data] = if dst = peer then [data] else [] := by
  by_cases isDst : dst = peer <;> simp [chunksTo, Action.chunkTo, isDst, List.filterMap_cons]

/-- One direction goes on. -/
theorem Carried.passes {op left : Op} {completion : Completion} {src dst : Peer}
    (carried : Carried { relay with pending := [left], out := arrivals op completion } src dst op
      completion after)
    (opposite : Opposite stream src dst) (directions : Directions stream left src dst) :
    Passes stream relay after := by
  have tunnel := carried.carriesOn rfl directions
  cases carried with
  | forwards data examined nonempty idleTimer running =>
    refine ⟨tunnel, ?_, ?_, ?_, ?_⟩
    · simp [release_notMem_arrivals]
    · intro done
      simp [show relay.done = false from running] at done
    · intro done
      simp [show relay.done = false from running] at done
    · intro src' dst' opposite' _
      have same := opposite'.eq_iff opposite
      change chunksTo dst' [.received src data, .write dst data] =
        chunksFrom src' [.received src data, .write dst data]
      rw [chunksTo_forward, chunksFrom_forward]
      simp only [same]
  | reads idleTimer running =>
    refine ⟨tunnel, ?_, ?_, ?_, ?_⟩
    · simp [release_notMem_arrivals]
    · intro done
      simp [show relay.done = false from running] at done
    · intro done
      simp [show relay.done = false from running] at done
    · intro src' dst' _ _
      rfl
  | ends =>
    apply passes_teardown
    · intro op' opMem
      apply tunnel
      rw [pending_teardown]
      exact opMem
    · exact silent_arrivals _ _
    · exact release_notMem_arrivals _ _

theorem Outcome.passes {input : Input} (outcome : relay.Outcome input after)
    (tunnel : ∀ op ∈ relay.pending, op.CarriesOn stream) : Passes stream relay after := by
  cases outcome with
  | exchange waits awaits fits handled =>
    rcases (tunnel _ (by rw [waits]; exact List.mem_singleton_self _)).exists_carries with
      ⟨src, dst, carries⟩
    exact absurd carries awaits.not_carries
  | tunnel bridging holds directions carries outstanding fits carried =>
    have opposite := (tunnel _ outstanding).opposite carries
    have same := directions.stream_eq opposite
    subst same
    exact carried.passes opposite directions
  | ignored done carries outstanding fits =>
    refine ⟨by simp, release_notMem_arrivals _ _, fun _ => silent_arrivals _ _, fun _ => done, ?_⟩
    intro src dst _ running
    simp [done] at running
  | expired kick armed => exact passes_silent tunnel rfl (by simp) (by simp) (by simp)
  | timedOut kick expired queued =>
    apply passes_teardown
    · exact tunnel
    · simp [Action.usesStream]
    · simp
  | shutsDown running waiting =>
    exact passes_silent tunnel rfl (by simp [Action.usesStream]) (by simp) (by simp)
  | drains running busy => exact passes_silent tunnel rfl (by simp) (by simp) (by simp)
  | alreadyClosed done => exact passes_silent tunnel rfl (by simp) (by simp) (by simp)

end Steps

/-! ## Whole runs -/

/-- What has become of a tunnel. -/
structure Transparent (stream : TransportStream) (log : List Transition) (relay : RelaySession) :
    Prop where
  control : relay.Control
  tunnel : ∀ op ∈ relay.pending, op.CarriesOn stream
  kept : ∀ endpoint other, .release endpoint other ∉ performed log
  silent : ∀ transition ∈ log, transition.target.done = true →
    ∀ action ∈ transition.actions, action.usesStream = false
  copied : ∀ src dst, Opposite stream src dst →
    chunksTo dst (performed log) <+: chunksFrom src (performed log) ∧
      (relay.done = false → chunksTo dst (performed log) = chunksFrom src (performed log))

section Runs

variable {relay last : RelaySession} {stream : TransportStream} {log : List Transition}

theorem transparent_of_runs (control : relay.Control)
    (tunnel : ∀ op ∈ relay.pending, op.CarriesOn stream)
    (runs : Runs (logged step) anyInput relay log last) : Transparent stream log last := by
  apply Runs.invariant ?_ ?_ runs
  · exact ⟨control, tunnel, by simp [performed], by simp, fun _ _ _ => ⟨List.prefix_rfl, fun _ => rfl⟩⟩
  · intro log relay input next added kept _ recorded
    rcases logged_eq_some_iff.mp recorded with ⟨actions, taken, rfl⟩
    rcases outcome_of_step kept.control taken with ⟨after, outcome, controlled, rfl, rfl⟩
    have passes := outcome.passes kept.tunnel
    have total := performed_snoc log relay input after.out { after with out := [] }
    refine ⟨controlled.update _ _ _, passes.tunnel, ?_, ?_, ?_⟩
    · intro endpoint other
      rw [total, List.mem_append, not_or]
      exact ⟨kept.kept endpoint other, passes.kept endpoint other⟩
    · simp only [List.forall_mem_append, List.forall_mem_singleton]
      exact ⟨kept.silent, passes.silent⟩
    · intro src dst opposite
      rcases kept.copied src dst opposite with ⟨inOrder, copied⟩
      rw [total, chunksTo_append, chunksFrom_append]
      cases done : after.done with
      | true =>
        rw [chunksTo_eq_nil (passes.silent done), List.append_nil]
        exact ⟨inOrder.trans (List.prefix_append _ _), by simp⟩
      | false =>
        have running : relay.done = false := by
          cases wasDone : relay.done with
          | true => simp [passes.stays wasDone] at done
          | false => rfl
        rw [passes.copies src dst opposite done, copied running]
        exact ⟨List.prefix_rfl, fun _ => rfl⟩

/--
Tunnel transparency: from any state of a tunnel on, in particular from its start, the chunks
passed to either stream are a list-prefix of the chunks read from the other one since then,
and so is what lsquic accepts of them behind whatever the stream was given before.  A step
after which the relay is torn down neither reads nor writes, and no stream goes to the pool.
-/
theorem tunnel_transparency (reachable : relay.Reachable) (bridging : relay.phase = .bridge)
    (live : relay.backend = some stream)
    (runs : Runs (logged step) anyInput relay log last) :
    (∀ src dst, Opposite stream src dst →
      chunksTo dst (performed log) <+: chunksFrom src (performed log) ∧
      ∀ records s earlier,
        Runs (recorded QuicTransportStream.step) QuicTransportStream.Healthy {}
          records s →
        (records.flatMap QuicTransportStream.submitted).map Prod.snd =
          earlier ++ chunksTo dst (performed log) →
        records.flatMap QuicTransportStream.accepted <+:
          earlier.flatten ++ (chunksFrom src (performed log)).flatten) ∧
    (∀ transition ∈ log, transition.target.done = true →
      ∀ action ∈ transition.actions, action.usesStream = false) ∧
    ∀ endpoint other, .release endpoint other ∉ performed log := by
  have tunnel : ∀ op ∈ relay.pending, op.CarriesOn stream := by
    intro op opMem
    rcases reachable.bridges bridging op opMem with ⟨other, carriesOn, same⟩
    rw [same stream live]
    exact carriesOn
  have transparent := transparent_of_runs reachable.control tunnel runs
  refine ⟨?_, transparent.silent, transparent.kept⟩
  intro src dst opposite
  have inOrder := (transparent.copied src dst opposite).1
  refine ⟨inOrder, ?_⟩
  intro records s earlier quicRuns handedOver
  have accepted := (QuicTransportStream.flowing_of_runs quicRuns).accepted_isPrefix
  rw [handedOver, List.flatten_append] at accepted
  rcases inOrder with ⟨unwritten, isRead⟩
  rw [← isRead, List.flatten_append, ← List.append_assoc]
  exact accepted.trans (List.prefix_append _ _)

/-- The client says hello through its tunnel. -/
def hello : List Input :=
  [.complete (.tunnelRead .client (.backend ⟨1, .TCP⟩)) (.read (.ok (ascii "hello")) 0),
    .complete (.tunnelWrite .client (.backend ⟨1, .TCP⟩)) (.written none)]

theorem tunnel_transparency_hello :
    ∃ relay log last, relay.Reachable ∧ relay.phase = .bridge ∧
      relay.backend = some ⟨1, .TCP⟩ ∧
      Runs (logged step) anyInput relay log last ∧
      chunksTo (.backend ⟨1, .TCP⟩) (performed log) = [ascii "hello"] ∧
      ∀ endpoint other, .release endpoint other ∉ performed log := by
  have reached : (run step (fun _ _ => true) (start .h1 [] 30) openedTunnel).any
      (fun bridged => decide (bridged.1.phase = .bridge ∧ bridged.1.backend = some ⟨1, .TCP⟩ ∧
        (run (logged step) (fun _ _ => true) bridged.1 hello).any fun final =>
          decide (chunksTo (.backend ⟨1, .TCP⟩) (performed final.2) = [ascii "hello"]))) = true := by
    decide +kernel
  rcases exists_runs_any reached with ⟨trace, relay, opens, bridging, live, later⟩
  rcases exists_runs_any later with ⟨log, last, runs, copied⟩
  have reachable : relay.Reachable := ⟨.h1, [], 30, trace, opens⟩
  exact ⟨relay, log, last, reachable, bridging, live, runs, copied,
    (tunnel_transparency reachable bridging live runs).2.2⟩

end Runs

end RelaySession

end ReverseProxy
