import ReverseProxy.Relay.Footprint

/-!
# Outstanding reads and writes

`Control` leaves a relay with one outstanding operation, or with one for each direction of
a tunnel.  So no stream has two reads or two writes outstanding, a stream that goes back to
the pool has none, and a relay that waits for a request does not write to its client.
-/

namespace ReverseProxy

namespace RelaySession

/-- The operation is an `async_read_some` on this stream. -/
def Op.readsFrom (peer : Peer) (op : Op) : Bool := op.reads.any fun read => decide (read.1 = peer)

/-- The operation is an `async_write_some` on this stream, or the call that writes a header list. -/
def Op.writesTo (peer : Peer) : Op → Bool
  | .writeHead dest _ _ _ | .writeBody dest _ _ _ | .tunnelWrite _ dest => decide (dest = peer)
  | _ => false

/-! ## A crash leaves nothing outstanding -/

section Crash

variable {relay after : RelaySession}

theorem crashed_teardown (relay : RelaySession) : relay.teardown.crashed = relay.crashed := by
  exact teardown_cases relay (fun _ => rfl) fun _ => rfl

theorem crashed_writeResponse (head : HttpResponseHead) (body : Option MessageBody)
    (next : WriteThen) : (relay.writeResponse head body next).crashed = relay.crashed := by
  rw [writeResponse, writeMessage_eq]

theorem AfterResponse.crashed_eq (continues : relay.AfterResponse after) :
    after.crashed = relay.crashed := by
  cases continues <;> rfl

theorem Resumes.crash {next : WriteThen} {ec : Option ErrorCode}
    (resumes : relay.Resumes next ec after) :
    after.crashed = relay.crashed ∨ after.pending = relay.pending := by
  cases resumes with
  | losesBackend | bridgesNothing => exact .inr rfl
  | writeFails => exact .inl (crashed_writeResponse _ _ _)
  | exchanged keepAlive ec continues => exact .inl continues.crashed_eq
  | rejected ec continues => exact .inl continues.crashed_eq
  | bridgeFails => exact .inl (crashed_teardown _)
  | _ => exact .inl rfl

theorem Handled.crash {op : Op} {completion : Completion}
    (handled : relay.Handled op completion after) :
    after.crashed = relay.crashed ∨ after.pending = relay.pending := by
  cases handled with
  | requestFails | drainEnds => exact .inl (crashed_teardown _)
  | requestRejected | connectFails | tunnelAccepted | responseFails | upgradeAnswered
  | responseAnswered => exact .inl (crashed_writeResponse _ _ _)
  | messageEnds ends resumes => exact resumes.crash
  | finished dest next ec resumes => exact resumes.crash
  | _ => exact .inl rfl

theorem Outcome.crash {input : Input} (outcome : relay.Outcome input after) :
    after.crashed = relay.crashed ∨ after.pending = [] := by
  cases outcome with
  | exchange waits awaits fits handled => exact handled.crash
  | tunnel bridging holds directions carries outstanding fits carried =>
    cases carried with
    | ends => exact .inl (crashed_teardown _)
    | _ => exact .inl rfl
  | timedOut => exact .inl (crashed_teardown _)
  | _ => exact .inl rfl

theorem Reachable.crashed_idle (reachable : relay.Reachable) (dead : relay.crashed = true) :
    relay.pending = [] := by
  suffices idle : relay.crashed = true → relay.pending = [] from idle dead
  apply reachable.invariant
  · intro clientCodec rules idleTimeout dead
    rcases requestPhase_eq { clientCodec, rules, idleTimeout } with ⟨idleTimer, entered⟩
    simp [start, entered] at dead
  · intro relay input next actions control _ taken dead
    have alive : relay.crashed = false := (stepped_of_step taken).choose_spec.1
    rcases outcome_of_step control taken with ⟨after, outcome, -, rfl, -⟩
    rcases outcome.crash with same | nothing
    · simp [same, alive] at dead
    · exact nothing

end Crash

/-! ## Only a tunnel is outstanding in the bridge phase -/

variable {stream : TransportStream}

section Bridge

variable {relay after : RelaySession}

theorem Awaits.not_carries {op : Op} {src dst : Peer} (awaits : relay.Awaits op) :
    ¬op.Carries src dst := by
  rintro (rfl | rfl)
  · exact awaits
  · exact awaits

/-- Only a tunnel to the backend, if there is one, is outstanding in the bridge phase. -/
def Bridges (after : RelaySession) : Prop :=
  after.phase = .bridge → ∀ op ∈ after.pending, ∃ stream, op.CarriesOn stream ∧
    ∀ held, after.backend = some held → held = stream

theorem bridges_of_phase (same : after.phase = relay.phase) (outside : relay.phase ≠ .bridge) :
    after.Bridges := by
  intro bridging
  exact absurd (same.symm.trans bridging) outside

theorem phase_of_teardown (inBridge : relay.teardown.phase = .bridge) : relay.phase = .bridge := by
  cases running : relay.done with
  | true => rwa [teardown_of_done _ running] at inBridge
  | false => simp [teardown_eq _ running] at inBridge

theorem bridges_teardown (outside : relay.phase ≠ .bridge) : relay.teardown.Bridges := by
  intro inBridge
  exact absurd (phase_of_teardown inBridge) outside

theorem bridges_writeResponse (outside : relay.phase ≠ .bridge) (head : HttpResponseHead)
    (body : Option MessageBody) (next : WriteThen) :
    (relay.writeResponse head body next).Bridges := by
  rw [writeResponse, writeMessage_eq]
  exact bridges_of_phase rfl outside

theorem AfterResponse.bridges (continues : relay.AfterResponse after)
    (outside : relay.phase ≠ .bridge) : after.Bridges := by
  cases continues with
  | nextRequest => simp [Bridges]
  | _ => exact bridges_of_phase rfl outside

theorem Resumes.bridging {next : WriteThen} {ec : Option ErrorCode}
    (resumes : relay.Resumes next ec after) (outside : relay.phase ≠ .bridge)
    (idle : relay.pending = []) : after.Bridges := by
  cases resumes with
  | awaitsResponse | losesBackend => simp [Bridges]
  | reconnects => exact bridges_of_phase rfl outside
  | writeFails =>
    apply bridges_writeResponse
    exact outside
  | exchanged keepAlive ec continues => exact continues.bridges outside
  | rejected ec continues => exact continues.bridges outside
  | bridges next stream fromPool isBackend opens =>
    intro _ op opMem
    simp only [idle, List.nil_append, List.mem_cons, List.not_mem_nil, or_false] at opMem
    have same : ∀ held, relay.backend = some held → held = stream := by simp [isBackend]
    rcases opMem with rfl | rfl
    · exact ⟨stream, .inl (.inl rfl), same⟩
    · exact ⟨stream, .inr (.inl rfl), same⟩
  | bridgesNothing => simp [Bridges, idle]
  | bridgeFails => exact bridges_teardown outside

theorem Handled.bridges {op : Op} {completion : Completion}
    (handled : relay.Handled op completion after) (outside : relay.phase ≠ .bridge)
    (idle : relay.pending = []) : after.Bridges := by
  cases handled with
  | requestFails | drainEnds => exact bridges_teardown outside
  | requestForwarded => simp [Bridges, connect, await, emit, served]
  | requestRejected =>
    apply bridges_writeResponse
    simp [served]
  | connectFails | tunnelAccepted | responseFails | upgradeAnswered | responseAnswered =>
    apply bridges_writeResponse
    exact outside
  | messageEnds ends resumes => exact resumes.bridging outside idle
  | finished dest next ec resumes => exact resumes.bridging outside idle
  | _ => exact bridges_of_phase rfl outside

theorem backend_of_teardown (held : relay.teardown.backend = some stream) :
    relay.backend = some stream := by
  cases running : relay.done with
  | true => rwa [teardown_of_done _ running] at held
  | false => simp [teardown_eq _ running] at held

theorem Carried.backend_of_eq_some {op : Op} {completion : Completion} {src dst : Peer}
    (carried : relay.Carried src dst op completion after) (held : after.backend = some stream) :
    relay.backend = some stream := by
  cases carried with
  | ends => exact backend_of_teardown held
  | _ => exact held

/-- An exchange is outside the bridge phase. -/
theorem Bridges.outside (bridging : relay.Bridges) {op : Op} (waits : relay.pending = [op])
    (awaits : relay.Awaits op) : relay.phase ≠ .bridge := by
  intro inBridge
  rcases bridging inBridge op (by simp [waits]) with ⟨stream, carriesOn, -⟩
  rcases carriesOn.exists_carries with ⟨src, dst, carries⟩
  exact awaits.not_carries carries

theorem Outcome.bridges {input : Input} (outcome : relay.Outcome input after)
    (bridging : relay.Bridges) : after.Bridges := by
  cases outcome with
  | exchange waits awaits fits handled => exact handled.bridges (bridging.outside waits awaits) rfl
  | tunnel inBridge holds directions carries outstanding fits carried =>
    intro _ op opMem
    refine ⟨_, carried.carriesOn rfl directions op opMem, ?_⟩
    intro held isHeld
    have wasHeld : relay.backend = some held := carried.backend_of_eq_some isHeld
    rcases holds with isBackend | ⟨-, gone⟩
    · exact Option.some.inj (wasHeld.symm.trans isBackend)
    · simp [gone] at wasHeld
  | ignored done carries outstanding fits => simp [Bridges]
  | timedOut kick expired queued =>
    intro inBridge op opMem
    have wasBridge := phase_of_teardown inBridge
    rw [pending_teardown] at opMem
    rcases bridging wasBridge op opMem with ⟨stream, carriesOn, same⟩
    refine ⟨stream, carriesOn, ?_⟩
    intro held isHeld
    have wasHeld := backend_of_teardown isHeld
    exact same held wasHeld
  | _ => exact bridging

theorem Reachable.bridges (reachable : relay.Reachable) : relay.Bridges := by
  apply reachable.invariant
  · intro clientCodec rules idleTimeout
    rcases requestPhase_eq { clientCodec, rules, idleTimeout } with ⟨idleTimer, entered⟩
    simp [start, entered, Bridges]
  · intro relay input next actions control bridging taken
    rcases outcome_of_step control taken with ⟨after, outcome, -, rfl, -⟩
    exact outcome.bridges bridging

end Bridge

/-! ## Between two steps -/

section States

variable {relay : RelaySession}

theorem Op.streams_of_readsFrom {op : Op} (reads : op.readsFrom (.backend stream) = true) :
    stream ∈ op.streams := by
  cases op with
  | readHead peer buf =>
    have isPeer : peer = .backend stream := by simpa [Op.readsFrom, Op.reads] using reads
    simp [isPeer, Op.streams, Peer.streams]
  | readBody dest codec body capacity next =>
    have isPeer : body.peer = .backend stream := by simpa [Op.readsFrom, Op.reads] using reads
    simp [isPeer, Op.streams, Peer.streams]
  | tunnelRead src dst =>
    have isPeer : src = .backend stream := by simpa [Op.readsFrom, Op.reads] using reads
    simp [isPeer, Op.streams, Peer.streams]
  | _ => simp [Op.readsFrom, Op.reads] at reads

theorem Op.streams_of_writesTo {op : Op} (writes : op.writesTo (.backend stream) = true) :
    stream ∈ op.streams := by
  cases op with
  | writeHead dest codec body next =>
    have isDest : dest = .backend stream := by simpa [Op.writesTo] using writes
    simp [isDest, Op.streams, Peer.streams]
  | writeBody dest codec body next =>
    have isDest : dest = .backend stream := by simpa [Op.writesTo] using writes
    simp [isDest, Op.streams, Peer.streams]
  | tunnelWrite src dst =>
    have isDest : dst = .backend stream := by simpa [Op.writesTo] using writes
    simp [isDest, Op.streams, Peer.streams]
  | _ => simp [Op.writesTo] at writes

/-- The two directions of a tunnel read and write different streams. -/
theorem countP_directions {up down : Op} (carriesUp : up.Carries .client (.backend stream))
    (carriesDown : down.Carries (.backend stream) .client) (peer : Peer) :
    [up, down].countP (Op.readsFrom peer) ≤ 1 ∧ [up, down].countP (Op.writesTo peer) ≤ 1 := by
  have distinct : ¬(Peer.client = peer ∧ Peer.backend stream = peer) := by
    rintro ⟨rfl, isClient⟩
    simp at isClient
  rcases carriesUp with rfl | rfl <;> rcases carriesDown with rfl | rfl <;>
    by_cases isClient : Peer.client = peer <;> by_cases isBackend : Peer.backend stream = peer <;>
    simp_all [Op.readsFrom, Op.reads, Op.writesTo]

theorem Control.outstanding_le_one (control : relay.Control)
    (idle : relay.crashed = true → relay.pending = []) (peer : Peer) :
    relay.pending.countP (Op.readsFrom peer) ≤ 1 ∧
      relay.pending.countP (Op.writesTo peer) ≤ 1 := by
  have few : ∀ ops : List Op, ops.length ≤ 1 →
      ops.countP (Op.readsFrom peer) ≤ 1 ∧ ops.countP (Op.writesTo peer) ≤ 1 := fun ops atMost =>
    ⟨List.countP_le_length.trans atMost, List.countP_le_length.trans atMost⟩
  cases control with
  | waiting op alive pending awaits => exact few _ (by simp [pending])
  | bridged stream up down alive phase backend pending carriesUp carriesDown =>
    have both := countP_directions carriesUp carriesDown peer
    rcases pending with pending | pending
    · rw [pending]
      exact both
    · have swapped : relay.pending.Perm [up, down] := pending ▸ List.Perm.swap up down []
      rw [swapped.countP_eq, swapped.countP_eq]
      exact both
  | finished done alive pending =>
    rcases pending with pending | ⟨left, src, dst, pending, -⟩
    · exact few _ (by simp [pending])
    · exact few _ (by simp [pending])
  | crashed dead => exact few _ (by simp [idle dead])

/-- A response is written in a later phase. -/
theorem Writing.at_later {codec : Codec} {body : Option MessageBody} {next : WriteThen}
    (writing : relay.Writing .client codec body next) : relay.At [.forward, .response] := by
  cases next with
  | requestWritten retryAllowed =>
    rcases writing with ⟨stream, -, isDest, -⟩
    simp at isDest
  | responseWritten backendKeepAlive =>
    rcases writing with ⟨stream, -, -, -, responding, -⟩
    exact responding.mono (by simp)
  | upgraded =>
    rcases writing with ⟨stream, -, -, -, responding, -⟩
    exact responding.mono (by simp)
  | tunnelOpened =>
    rcases writing with ⟨stream, -, -, -, forwarding, -⟩
    exact forwarding.mono (by simp)
  | errorWritten =>
    rcases writing with ⟨-, -, -, late, -⟩
    exact late

theorem Awaits.not_writing {op : Op} (awaits : relay.Awaits op) (running : relay.done = false)
    (requesting : relay.phase = .request) : op.writesTo .client = false := by
  have early : ¬relay.At [.forward, .response] := fun late =>
    late.ne_request (by simp) running requesting
  rw [← Bool.not_eq_true]
  intro writes
  cases op with
  | writeHead dest codec body next =>
    have isClient : dest = .client := by simpa [Op.writesTo] using writes
    subst isClient
    exact early (Writing.at_later awaits)
  | writeBody dest codec body next =>
    have isClient : dest = .client := by simpa [Op.writesTo] using writes
    subst isClient
    exact early (Writing.at_later awaits)
  | tunnelWrite src dst => exact awaits
  | _ => simp [Op.writesTo] at writes

theorem Control.not_writing (control : relay.Control)
    (idle : relay.crashed = true → relay.pending = []) (running : relay.done = false)
    (requesting : relay.phase = .request) : ∀ op ∈ relay.pending, op.writesTo .client = false := by
  cases control with
  | waiting op alive pending awaits => simpa [pending] using awaits.not_writing running requesting
  | bridged stream up down alive phase backend pending carriesUp carriesDown =>
    exact absurd requesting (phase.ne_request (by simp) running)
  | finished done alive pending => simp [running] at done
  | crashed dead => simp [idle dead]

/--
At most one outstanding read and one outstanding write per stream: this holds in every
reachable state, a stream that is released has neither, and while a relay waits for a
request it is not writing to its client.
-/
theorem one_outstanding_per_stream (reachable : relay.Reachable) :
    (∀ peer, relay.pending.countP (Op.readsFrom peer) ≤ 1 ∧
      relay.pending.countP (Op.writesTo peer) ≤ 1) ∧
    (∀ input next actions endpoint stream, relay.step input = some (next, actions) →
      .release endpoint stream ∈ actions →
      ∀ op ∈ next.pending, op.readsFrom (.backend stream) = false ∧
        op.writesTo (.backend stream) = false) ∧
    (relay.phase = .request → relay.done = false →
      ∀ op ∈ relay.pending, op.writesTo .client = false) := by
  have control := reachable.control
  refine ⟨?_, ?_, ?_⟩
  · exact control.outstanding_le_one reachable.crashed_idle
  · intro input next actions endpoint stream taken released op opMem
    rcases outcome_of_step control taken with ⟨after, outcome, -, rfl, rfl⟩
    have unreached : ¬after.Reaches stream := outcome.deals.not_reaches released
    constructor
    · rw [← Bool.not_eq_true]
      intro reads
      exact unreached (.inr ⟨op, opMem, op.streams_of_readsFrom reads⟩)
    · rw [← Bool.not_eq_true]
      intro writes
      exact unreached (.inr ⟨op, opMem, op.streams_of_writesTo writes⟩)
  · intro requesting running
    exact control.not_writing reachable.crashed_idle running requesting

/-- A client opens a tunnel. -/
def openedTunnel : List Input :=
  [.complete (.readHead .client []) (.read (.ok (Text.ascii "CONNECT t:443 HTTP/1.1\r\n\r\n")) 0),
    .complete (.connect (.fresh ⟨[], Text.ascii "t", 443, .TCP⟩) .tunnel)
      (.connected (.ok (⟨1, .TCP⟩, ⟨[], Text.ascii "t", 443, .TCP⟩, false))),
    .complete (.writeHead .client .h1 none .tunnelOpened) (.written none)]

theorem one_outstanding_per_stream_tunnel :
    ∃ relay : RelaySession, relay.Reachable ∧ relay.pending.length = 2 ∧
      ∀ peer, relay.pending.countP (Op.readsFrom peer) ≤ 1 ∧
        relay.pending.countP (Op.writesTo peer) ≤ 1 := by
  have reached : (Machine.run step (fun _ _ => true) (start .h1 [] 30) openedTunnel).any
      (fun last => decide (last.1.pending.length = 2)) = true := by
    decide +kernel
  rcases Machine.exists_runs_any reached with ⟨trace, relay, runs, both⟩
  have reachable : relay.Reachable := ⟨.h1, [], 30, trace, runs⟩
  exact ⟨relay, reachable, both, (one_outstanding_per_stream reachable).1⟩

end States

end RelaySession

end ReverseProxy
