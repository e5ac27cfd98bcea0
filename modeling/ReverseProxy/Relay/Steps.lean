import ReverseProxy.Machine.Run
import ReverseProxy.Relay.Transitions

/-!
# The steps of a relay

Every outcome of a callback leaves the relay in a state described by `Control`, so
`Control` holds in every state of every run (`control_of_runs`), and each step from such
a state is one of the few kinds listed in `Outcome`.
-/

namespace ReverseProxy

open Text

namespace RelaySession

/-! ## `Control` is kept -/

variable {completion : Completion} {op : Op} {next : WriteThen}

section Control

variable {relay after : RelaySession}

theorem Free.appended (free : relay.Free) (op : Op) : relay.pending ++ [op] = [op] := by
  rw [free.idle]
  rfl

theorem Free.control_teardown (free : relay.Free) : relay.teardown.Control := by
  refine teardown_cases relay (fun running => ?_) fun _ => ?_
  · exact .finished running free.alive (.inl free.idle)
  · exact .finished rfl free.alive (.inl free.idle)

variable {stream : TransportStream} {codec : Codec}

theorem awaits_parseOp (responding : relay.At [.response]) (isCodec : relay.backendCodec = codec)
    (serves : relay.Serves stream) : relay.Awaits (parseOp (.backend stream) codec) := by
  cases codec
  · exact ⟨responding, isCodec, serves⟩
  · exact ⟨responding, isCodec, serves⟩

theorem connection_of_fits {target : ConnectTarget} {next : ConnectThen}
    {endpoint : BackendEndpoint} {fromPool : Bool}
    (fits : relay.Fits (.connect target next) (.connected (.ok (stream, endpoint, fromPool))) =
      true) :
    stream.protocol = endpoint.protocol ∧ ∀ wanted, target = .fresh wanted → endpoint = wanted := by
  cases target <;> simp_all [Fits]

theorem AfterResponse.control (continues : relay.AfterResponse after) (free : relay.Free)
    (late : relay.At [.forward, .response]) (gone : relay.backend = none) : after.Control := by
  cases continues with
  | nextRequest idleTimer running keepAlive overTcp serving =>
    exact .waiting _ free.alive (free.appended _) ⟨.inr (by simp), overTcp, gone⟩
  | shutDown running last => exact .waiting _ free.alive (free.appended _) ⟨late, gone⟩
  | drain running overQuic serving => exact .waiting _ free.alive (free.appended _) ⟨late, gone⟩
  | finished done => exact .finished done free.alive (.inl free.idle)

variable {body : Option MessageBody}

theorem control_writeResponse (free : relay.Free) (head : HttpResponseHead)
    (writing : relay.Writing .client relay.clientCodec body next) :
    (relay.writeResponse head body next).Control := by
  rw [writeResponse, writeMessage_eq]
  refine .waiting _ free.alive (free.appended _) ?_
  cases next <;> exact writing

theorem control_writeError (free : relay.Free) (late : relay.At [.forward, .response])
    (gone : relay.backend = none) (status : HttpStatus) (message : Bytes) :
    (relay.writeError status message).Control := by
  apply control_writeResponse
  · exact ⟨free.alive, free.idle⟩
  · refine ⟨gone, rfl, rfl, late, ?_⟩
    rintro part ⟨⟩
    exact ⟨message, 0, rfl⟩

theorem At.mono {phases more : List Phase} (inPhase : relay.At phases) (sub : phases ⊆ more) :
    relay.At more :=
  inPhase.imp_right fun phaseMem => sub phaseMem

theorem At.ne_request {phases : List Phase} (reached : relay.At phases)
    (others : .request ∉ phases) (running : relay.done = false) : relay.phase ≠ .request := by
  rintro waiting
  rcases reached with done | isPhase
  · simp [running] at done
  · exact others (waiting ▸ isPhase)

theorem Resumes.control {dest : Peer} {ec : Option ErrorCode}
    (resumes : relay.Resumes next ec after) (free : relay.Free)
    (writing : relay.Writing dest codec body next) : after.Control := by
  cases resumes with
  | awaitsResponse retryAllowed idleTimer stream isBackend =>
    rcases writing with ⟨served, serves, -⟩
    have same : served = stream := by
      rcases serves.1 with isServed | ⟨-, gone⟩
      · simpa [isBackend] using isServed.symm
      · simp [isBackend] at gone
    subst same
    refine .waiting _ free.alive (free.appended _) ?_
    exact awaits_parseOp (.inr (by simp)) rfl ⟨.inl isBackend, serves.2⟩
  | losesBackend retryAllowed idleTimer gone => exact .crashed rfl
  | reconnects ec pooled bodiless =>
    rcases writing with ⟨_, serves, -, -, forwarding, kept, -⟩
    exact .waiting _ free.alive (free.appended _)
      ⟨forwarding, rfl, fun _ => ⟨kept, rfl, serves.2.1⟩⟩
  | writeFails retryAllowed ec =>
    rcases writing with ⟨_, -, -, -, forwarding, -, -⟩
    apply control_writeError
    · exact ⟨free.alive, free.idle⟩
    · exact forwarding.mono (by simp)
    · rfl
  | exchanged keepAlive ec continues =>
    rcases writing with ⟨_, -, -, -, responding, -⟩
    apply continues.control
    · exact ⟨free.alive, free.idle⟩
    · exact responding.mono (by simp)
    · rfl
  | rejected ec continues => exact continues.control free writing.2.2.2.1 writing.1
  | bridges next stream fromPool isBackend opens =>
    refine .bridged stream _ _ free.alive (.inr (by simp)) (.inl isBackend) (.inl ?_) (.inl rfl)
      (.inl rfl)
    simp [free.idle]
  | bridgesNothing next fromPool gone opens => exact .crashed rfl
  | bridgeFails next ec opens => exact free.control_teardown

theorem Writing.update {dest : Peer} (writing : relay.Writing dest codec body next)
    (pending : List Op) (out : List Action) :
    Writing { relay with pending, out } dest codec body next := by
  cases next <;> exact writing

theorem Writing.ended {dest : Peer} (writing : relay.Writing dest codec body next) :
    relay.Writing dest codec none next := by
  cases next with
  | requestWritten retryAllowed =>
    rcases writing with ⟨stream, serves, isDest, isCodec, forwarding, kept, -⟩
    exact ⟨stream, serves, isDest, isCodec, forwarding, kept, nofun⟩
  | responseWritten backendKeepAlive =>
    rcases writing with ⟨stream, holds, isDest, isCodec, responding, -⟩
    exact ⟨stream, holds, isDest, isCodec, responding, nofun⟩
  | upgraded =>
    rcases writing with ⟨stream, holds, isDest, isCodec, responding, -⟩
    exact ⟨stream, holds, isDest, isCodec, responding, rfl⟩
  | tunnelOpened =>
    rcases writing with ⟨stream, holds, isDest, isCodec, forwarding, -⟩
    exact ⟨stream, holds, isDest, isCodec, forwarding, rfl⟩
  | errorWritten =>
    rcases writing with ⟨gone, isDest, isCodec, late, -⟩
    exact ⟨gone, isDest, isCodec, late, nofun⟩

theorem Advances.writing_body {dest : Peer} {body : MessageBody} {bodyStep : BodySource × BodyStep}
    (advances : Advances op completion dest codec body next bodyStep) (awaits : relay.Awaits op) :
    relay.Writing dest codec (some body) next := by
  cases advances <;> exact awaits

theorem Advances.writing {dest : Peer} {body : MessageBody} {bodyStep : BodySource × BodyStep}
    (advances : Advances op completion dest codec body next bodyStep) (awaits : relay.Awaits op) :
    relay.Writing dest codec (some { body with source := bodyStep.1 }) next := by
  have writing := advances.writing_body awaits
  have buffered : ∀ data readPos, body.source = .buffer data readPos →
      ∃ data readPos, bodyStep.1 = .buffer data readPos := by
    intro data readPos isBuffer
    cases advances <;> rw [isBuffer] <;> exact ⟨_, _, rfl⟩
  cases next with
  | requestWritten retryAllowed =>
    rcases writing with ⟨stream, holds, isDest, isCodec, forwarding, kept, fromClient⟩
    refine ⟨stream, holds, isDest, isCodec, forwarding, kept, ?_⟩
    rintro part ⟨⟩
    exact fromClient body rfl
  | responseWritten backendKeepAlive =>
    rcases writing with ⟨stream, holds, isDest, isCodec, responding, fromBackend⟩
    refine ⟨stream, holds, isDest, isCodec, responding, ?_⟩
    rintro part ⟨⟩
    exact fromBackend body rfl
  | upgraded =>
    rcases writing with ⟨_, -, -, -, -, bodiless⟩
    simp at bodiless
  | tunnelOpened =>
    rcases writing with ⟨_, -, -, -, -, bodiless⟩
    simp at bodiless
  | errorWritten =>
    rcases writing with ⟨gone, isDest, isCodec, late, fromBuffer⟩
    refine ⟨gone, isDest, isCodec, late, ?_⟩
    rintro part ⟨⟩
    rcases fromBuffer body rfl with ⟨data, readPos, isBuffer⟩
    exact buffered data readPos isBuffer

theorem Ends.writing {dest : Peer} {ec : Option ErrorCode} {shown : List Action}
    (ends : Ends op completion dest codec next ec shown) (awaits : relay.Awaits op) :
    relay.Writing dest codec none next := by
  cases ends with
  | headFails | headIsAll | pieceFails => exact Writing.ended awaits
  | bodyFails advances fails => exact (advances.writing awaits).ended
  | bodyEnds advances exhausted => exact (advances.writing awaits).ended

theorem op_of_responseProgress {progress : H1Codec.Progress ParsedResponse}
    (responding : responseProgress stream op completion = some progress) :
    (∃ buf, op = .readHead (.backend stream) buf) ∨ op = .takeHeaders (.backend stream) := by
  unfold responseProgress at responding
  split at responding
  · rw [Option.ite_none_right_eq_some] at responding
    exact .inl ⟨_, by rw [responding.1]⟩
  · rw [Option.ite_none_right_eq_some] at responding
    exact .inr (by rw [responding.1])
  · rw [Option.ite_none_right_eq_some] at responding
    exact .inr (by rw [responding.1])
  · simp at responding

theorem responseProgress_awaits {progress : H1Codec.Progress ParsedResponse}
    (responding : responseProgress stream op completion = some progress) (awaits : relay.Awaits op) :
    relay.At [.response] ∧ relay.Serves stream := by
  unfold responseProgress at responding
  split at responding
  · rw [Option.ite_none_right_eq_some] at responding
    exact ⟨awaits.1, responding.1 ▸ awaits.2.2⟩
  · rw [Option.ite_none_right_eq_some] at responding
    exact ⟨awaits.1, responding.1 ▸ awaits.2.2⟩
  · rw [Option.ite_none_right_eq_some] at responding
    exact ⟨awaits.1, responding.1 ▸ awaits.2.2⟩
  · simp at responding

theorem requestProgress_awaits {progress : H1Codec.Progress ParsedRequest}
    (requesting : requestProgress op completion = some progress) (awaits : relay.Awaits op) :
    relay.At [.request] ∧ relay.backend = none := by
  unfold requestProgress at requesting
  split at requesting
  · exact ⟨awaits.1, awaits.2.2⟩
  · exact ⟨awaits.1, awaits.2.2⟩
  · exact ⟨awaits.1, awaits.2.2⟩
  · simp at requesting

/-- The body of a forwarded request comes from the client. -/
theorem peer_of_mem_map {source? : Option BodySource} {peer : Peer} :
    ∀ part ∈ source?.map fun source => (⟨peer, source⟩ : MessageBody), part.peer = peer := by
  intro part partMem
  simp only [Option.mem_def, Option.map_eq_some_iff] at partMem
  rcases partMem with ⟨source, -, rfl⟩
  rfl

theorem Handled.control (handled : relay.Handled op completion after) (free : relay.Free)
    (awaits : relay.Awaits op) (fits : relay.Fits op completion = true) : after.Control := by
  cases handled with
  | requestMore progress =>
    refine .waiting _ free.alive (free.appended _) ?_
    unfold requestProgress at progress
    split at progress
    · exact awaits
    · simp at progress
    · simp at progress
    · simp at progress
  | requestFails ec progress => exact free.control_teardown
  | requestForwarded progress idleTimer connects =>
    refine .waiting _ free.alive (free.appended _) ?_
    refine ⟨.inr (by simp [connect, served, emit, await]), ?_, ?_⟩
    · exact (requestProgress_awaits progress awaits).2
    · rintro rfl
      unfold connectionFor at connects
      split at connects <;> simp at connects
  | requestRejected progress idleTimer rejects =>
    apply control_writeError
    · exact ⟨free.alive, free.idle⟩
    · exact .inr (by simp [served])
    · exact (requestProgress_awaits progress awaits).2
  | connectFails target next ec message =>
    exact control_writeError free (awaits.1.mono (by simp)) awaits.2.1 _ _
  | requestSent target head body stream endpoint fromPool idleTimer =>
    rcases connection_of_fits fits with ⟨protocol, -⟩
    refine .waiting _ free.alive (free.appended _) ?_
    exact ⟨stream, ⟨.inl rfl, rfl, protocol⟩, rfl, rfl, awaits.1, rfl, peer_of_mem_map⟩
  | tunnelAccepted target stream endpoint fromPool =>
    apply control_writeResponse
    · exact ⟨free.alive, free.idle⟩
    · exact ⟨stream, .inl rfl, rfl, rfl, awaits.1, rfl⟩
  | requestResent target stream endpoint fromPool head kept =>
    rcases connection_of_fits fits with ⟨protocol, reached⟩
    rcases awaits.2.2 rfl with ⟨-, isTarget, isCodec⟩
    have same := reached _ isTarget
    subst same
    refine .waiting _ free.alive (free.appended _) ?_
    exact ⟨stream, ⟨.inl rfl, isCodec, protocol⟩, rfl, rfl, awaits.1, by simp [kept],
      peer_of_mem_map⟩
  | bodyAsks advances asks =>
    refine .waiting _ free.alive (free.appended _) ?_
    exact (advances.writing awaits).update _ _
  | pieceSent advances delivers nonempty =>
    refine .waiting _ free.alive (free.appended _) ?_
    exact (advances.writing awaits).update _ _
  | finishes ends =>
    refine .waiting _ free.alive (free.appended _) ?_
    exact (ends.writing awaits).update _ _
  | messageEnds ends resumes =>
    apply resumes.control
    · exact ⟨free.alive, free.idle⟩
    · exact (ends.writing awaits).update _ _
  | finished dest next ec resumes =>
    apply resumes.control
    · exact ⟨free.alive, free.idle⟩
    · exact Writing.update awaits _ _
  | responseMore progress =>
    refine .waiting _ free.alive (free.appended _) ?_
    unfold responseProgress at progress
    split at progress
    · rw [Option.ite_none_right_eq_some] at progress
      rcases progress with ⟨rfl, -⟩
      exact awaits
    all_goals simp at progress
  | responseFails ec progress =>
    apply control_writeError
    · exact ⟨free.alive, free.idle⟩
    · exact (responseProgress_awaits progress awaits).1.mono (by simp)
    · rfl
  | upgradeAnswered progress idleTimer upgrades =>
    rcases responseProgress_awaits progress awaits with ⟨responding, serves⟩
    apply control_writeResponse
    · exact ⟨free.alive, free.idle⟩
    · exact ⟨_, serves.1, rfl, rfl, responding, rfl⟩
  | responseAnswered progress idleTimer plain =>
    rcases responseProgress_awaits progress awaits with ⟨responding, serves⟩
    apply control_writeResponse
    · exact ⟨free.alive, free.idle⟩
    · refine ⟨_, serves, rfl, rfl, responding, ?_⟩
      unfold clientBody
      split
      · simp
      · exact peer_of_mem_map
  | drainReads data examined idleTimer running =>
    exact .waiting _ free.alive (free.appended _) awaits
  | drainEnds completion => exact free.control_teardown

theorem Carried.control {op left : Op} {src dst : Peer}
    (carried : relay.Carried src dst op completion after) (alive : relay.crashed = false)
    (bridging : relay.At [.bridge]) (holds : relay.Holds stream) (isLeft : relay.pending = [left])
    (directions : Directions stream left src dst) : after.Control := by
  have goesOn : ∀ op' : Op, op'.Carries src dst → ∀ idleTimer out,
      Control { relay with idleTimer, pending := relay.pending ++ [op'], out } := by
    intro op' carries idleTimer out
    rw [isLeft]
    rcases directions with ⟨rfl, rfl, leftCarries⟩ | ⟨rfl, rfl, leftCarries⟩
    · exact .bridged stream op' left alive bridging holds (.inr rfl) carries leftCarries
    · exact .bridged stream left op' alive bridging holds (.inl rfl) leftCarries carries
  have leftOver : ∃ left src dst, relay.pending = [left] ∧ left.Carries src dst := by
    rcases directions with ⟨-, -, leftCarries⟩ | ⟨-, -, leftCarries⟩
    · exact ⟨left, _, _, isLeft, leftCarries⟩
    · exact ⟨left, _, _, isLeft, leftCarries⟩
  cases carried with
  | forwards data examined nonempty idleTimer running => exact goesOn _ (.inr rfl) idleTimer _
  | reads idleTimer running => exact goesOn _ (.inl rfl) idleTimer _
  | ends =>
    refine teardown_cases relay (fun running => ?_) fun _ => ?_
    · exact .finished running alive (.inr leftOver)
    · exact .finished rfl alive (.inr leftOver)

/-- One direction of a tunnel between the client and this stream. -/
def Op.CarriesOn (stream : TransportStream) (op : Op) : Prop :=
  op.Carries .client (.backend stream) ∨ op.Carries (.backend stream) .client

theorem Op.CarriesOn.exists_carries (carries : op.CarriesOn stream) :
    ∃ src dst, op.Carries src dst := by
  rcases carries with up | down
  · exact ⟨_, _, up⟩
  · exact ⟨_, _, down⟩

theorem Carried.carriesOn {op left : Op} {src dst : Peer}
    (carried : relay.Carried src dst op completion after) (isLeft : relay.pending = [left])
    (directions : Directions stream left src dst) : ∀ op ∈ after.pending, op.CarriesOn stream := by
  intro op' opMem
  have stays : op' ∈ relay.pending → op'.CarriesOn stream := by
    intro isOp
    rw [isLeft, List.mem_singleton] at isOp
    rw [isOp]
    rcases directions with ⟨-, -, down⟩ | ⟨-, -, up⟩
    · exact .inr down
    · exact .inl up
  have goesOn : op'.Carries src dst → op'.CarriesOn stream := by
    intro carries
    rcases directions with ⟨rfl, rfl, -⟩ | ⟨rfl, rfl, -⟩
    · exact .inl carries
    · exact .inr carries
  cases carried with
  | forwards data examined nonempty idleTimer running =>
    rcases List.mem_append.mp opMem with old | new
    · exact stays old
    · exact goesOn (.inr (List.mem_singleton.mp new))
  | reads idleTimer running =>
    rcases List.mem_append.mp opMem with old | new
    · exact stays old
    · exact goesOn (.inl (List.mem_singleton.mp new))
  | ends =>
    rw [pending_teardown] at opMem
    exact stays opMem

end Control

/-! ## The client -/

section Client

variable {relay after : RelaySession}

theorem clientCodec_teardown (relay : RelaySession) :
    relay.teardown.clientCodec = relay.clientCodec := by
  exact teardown_cases relay (fun _ => rfl) fun _ => rfl

theorem clientCodec_writeResponse (head : HttpResponseHead) (body : Option MessageBody)
    (next : WriteThen) : (relay.writeResponse head body next).clientCodec = relay.clientCodec := by
  rw [writeResponse, writeMessage_eq]

theorem AfterResponse.clientCodec_eq (continues : relay.AfterResponse after) :
    after.clientCodec = relay.clientCodec := by
  cases continues <;> rfl

theorem Resumes.clientCodec_eq {ec : Option ErrorCode} (resumes : relay.Resumes next ec after) :
    after.clientCodec = relay.clientCodec := by
  cases resumes with
  | writeFails => exact clientCodec_writeResponse _ _ _
  | exchanged keepAlive ec continues => exact continues.clientCodec_eq
  | rejected ec continues => exact continues.clientCodec_eq
  | bridgeFails => exact clientCodec_teardown _
  | _ => rfl

theorem Handled.clientCodec_eq (handled : relay.Handled op completion after) :
    after.clientCodec = relay.clientCodec := by
  cases handled with
  | requestFails | drainEnds => exact clientCodec_teardown _
  | requestRejected | connectFails | tunnelAccepted | responseFails | upgradeAnswered
  | responseAnswered => exact clientCodec_writeResponse _ _ _
  | messageEnds ends resumes => exact resumes.clientCodec_eq
  | finished dest next ec resumes => exact resumes.clientCodec_eq
  | _ => rfl

end Client

/-! ## Steps -/

/-- What a step of a relay can be. -/
inductive Outcome (relay : RelaySession) : Input → RelaySession → Prop where
  | exchange {op : Op} {completion : Completion} {after : RelaySession}
      (waits : relay.pending = [op]) (awaits : relay.Awaits op)
      (fits : relay.Fits op completion = true)
      (handled : Handled { relay with pending := [], out := arrivals op completion } op completion
        after) :
      Outcome relay (.complete op completion) after
  | tunnel {op left : Op} {completion : Completion} {src dst : Peer}
      {stream : TransportStream} {after : RelaySession} (bridging : relay.At [.bridge])
      (holds : relay.Holds stream) (directions : Directions stream left src dst)
      (carries : op.Carries src dst) (outstanding : op ∈ relay.pending)
      (fits : relay.Fits op completion = true)
      (carried : Carried { relay with pending := [left], out := arrivals op completion } src dst
        op completion after) :
      Outcome relay (.complete op completion) after
  /-- The last direction of a bridge after teardown. -/
  | ignored {op : Op} {completion : Completion} {src dst : Peer} (done : relay.done = true)
      (carries : op.Carries src dst) (outstanding : op ∈ relay.pending)
      (fits : relay.Fits op completion = true) :
      Outcome relay (.complete op completion)
        { relay with pending := [], out := arrivals op completion }
  | expired (kick : ℕ) (armed : relay.idleTimer.armed = some kick) :
      Outcome relay .timerExpires
        { relay with
          idleTimer :=
            { relay.idleTimer with
              armed := none, expired := relay.idleTimer.expired ++ [kick] }
          out := [] }
  | timedOut (kick : ℕ) (expired : List ℕ) (queued : relay.idleTimer.expired = kick :: expired) :
      Outcome relay .timerHandler
        (teardown
          { relay with
            idleTimer := { relay.idleTimer with expired }, out := [.idleTimeout kick] })
  | shutsDown (running : relay.done = false) (waiting : relay.phase = .request) :
      Outcome relay .gracefulClose { relay with draining := true, out := [.shutdown .client] }
  | drains (running : relay.done = false) (busy : relay.phase ≠ .request) :
      Outcome relay .gracefulClose { relay with draining := true, out := [] }
  | alreadyClosed (done : relay.done = true) :
      Outcome relay .gracefulClose { relay with out := [] }

section Steps

variable {relay : RelaySession}

theorem outcome_of_stepped {after : RelaySession} {input : Input} (control : relay.Control)
    (alive : relay.crashed = false) (stepped : relay.Stepped input after) :
    relay.Outcome input after := by
  cases stepped with
  | completed op completion opMem fits =>
    cases control with
    | waiting op' alive pending awaits =>
      simp only [pending, List.mem_singleton] at opMem
      subst opMem
      apply Outcome.exchange pending awaits fits
      rw [pending, List.erase_cons_head]
      apply handled_handle
      · exact awaits.update _ _ _ _
      · exact fits
    | bridged stream up down alive phase holds pending carriesUp carriesDown =>
      rcases erase_of_carries carriesUp carriesDown pending opMem with
        ⟨rfl, left⟩ | ⟨rfl, left⟩
      · apply Outcome.tunnel phase holds (.inl ⟨rfl, rfl, carriesDown⟩) carriesUp opMem fits
        rw [left]
        apply carried_handle
        · exact carriesUp
        · exact fits
      · apply Outcome.tunnel phase holds (.inr ⟨rfl, rfl, carriesUp⟩) carriesDown opMem fits
        rw [left]
        apply carried_handle
        · exact carriesDown
        · exact fits
    | finished done alive pending =>
      rcases pending with nothing | ⟨left, src, dst, isLeft, carries⟩
      · simp [nothing] at opMem
      · have isOp : op = left := by simpa [isLeft] using opMem
        subst isOp
        rw [isLeft, List.erase_cons_head]
        have stays : handle
            { relay with pending := [], out := arrivals op completion } op completion =
            { relay with pending := [], out := arrivals op completion } := by
          rcases carries with rfl | rfl
          · cases completion <;> simp [handle, onTunnelRead, done]
          · cases completion <;> simp [handle, onTunnelWrite, done]
        rw [stays]
        exact .ignored done carries opMem fits
    | crashed dead => simp [alive] at dead
  | expired kick armed => exact .expired kick armed
  | timedOut kick expired queued => exact .timedOut kick expired queued
  | drained =>
    unfold gracefulClose
    split
    · rename_i done
      exact .alreadyClosed done
    · rename_i notDone
      have running : relay.done = false := by simpa using notDone
      split
      · rename_i waiting
        exact .shutsDown running waiting
      · rename_i busy
        exact .drains running busy

theorem Outcome.control {after : RelaySession} {input : Input} (outcome : relay.Outcome input after)
    (alive : relay.crashed = false) (control : relay.Control) : after.Control := by
  cases outcome with
  | exchange waits awaits fits handled =>
    exact handled.control ⟨alive, rfl⟩ (awaits.update _ _ _ _) fits
  | tunnel bridging holds directions carries outstanding fits carried =>
    exact carried.control alive bridging holds rfl directions
  | ignored done carries outstanding fits => exact .finished done alive (.inl rfl)
  | expired kick armed => exact control.update _ _ _
  | timedOut kick expired queued => exact (control.update _ _ _).teardown
  | shutsDown running waiting => exact control.update _ _ _
  | drains running busy => exact control.update _ _ _
  | alreadyClosed done => exact control.update _ _ _

theorem Outcome.clientCodec_eq {after : RelaySession} {input : Input}
    (outcome : relay.Outcome input after) : after.clientCodec = relay.clientCodec := by
  cases outcome with
  | exchange waits awaits fits handled => exact handled.clientCodec_eq
  | tunnel bridging holds directions carries outstanding fits carried =>
    cases carried with
    | ends => exact clientCodec_teardown _
    | _ => rfl
  | timedOut kick expired queued => exact clientCodec_teardown _
  | _ => rfl

theorem control_start (clientCodec : Codec) (rules : List Router.Rule) (idleTimeout : ℕ) :
    (start clientCodec rules idleTimeout).Control := by
  rcases requestPhase_eq { clientCodec, rules, idleTimeout } with ⟨idleTimer, entered⟩
  rw [start, entered]
  refine .waiting _ rfl rfl ?_
  cases clientCodec
  · exact ⟨.inr (by simp), rfl, rfl⟩
  · exact ⟨.inr (by simp), rfl, rfl⟩

/-- A step of a relay: its outcome, which keeps `Control`. -/
theorem outcome_of_step {next : RelaySession} {input : Input} {actions : List Action}
    (control : relay.Control) (taken : relay.step input = some (next, actions)) :
    ∃ after, relay.Outcome input after ∧ after.Control ∧ next = { after with out := [] } ∧
      actions = after.out := by
  rcases stepped_of_step taken with ⟨after, alive, stepped, isNext, isActions⟩
  have outcome := outcome_of_stepped control alive stepped
  exact ⟨after, outcome, outcome.control alive control, isNext, isActions⟩

theorem control_step {next : RelaySession} {input : Input} {actions : List Action}
    (control : relay.Control) (taken : relay.step input = some (next, actions)) : next.Control := by
  rcases outcome_of_step control taken with ⟨after, -, controlled, rfl, -⟩
  exact controlled.update _ _ _

theorem control_of_runs {allowed : RelaySession → Input → Prop} {clientCodec : Codec}
    {rules : List Router.Rule} {idleTimeout : ℕ} {trace : List Action}
    (runs : Machine.Runs step allowed (start clientCodec rules idleTimeout) trace relay) :
    relay.Control := by
  apply runs.state_invariant (control_start clientCodec rules idleTimeout)
  intro relay input next actions control _ taken
  exact control_step control taken

/-- Some run leads to this state. -/
def Reachable (relay : RelaySession) : Prop :=
  ∃ clientCodec rules idleTimeout trace,
    Machine.Runs step Machine.anyInput (start clientCodec rules idleTimeout) trace relay

/-- What holds at every start and is kept by every step holds in every reachable state. -/
theorem Reachable.invariant {Inv : RelaySession → Prop} (reachable : relay.Reachable)
    (initial : ∀ clientCodec rules idleTimeout, Inv (start clientCodec rules idleTimeout))
    (kept : ∀ {relay input next actions}, relay.Control → Inv relay →
      relay.step input = some (next, actions) → Inv next) : Inv relay := by
  rcases reachable with ⟨clientCodec, rules, idleTimeout, trace, runs⟩
  suffices invariant : relay.Control ∧ Inv relay from invariant.2
  apply runs.state_invariant
  · exact ⟨control_start clientCodec rules idleTimeout, initial clientCodec rules idleTimeout⟩
  · rintro relay input next actions ⟨control, invariant⟩ _ taken
    exact ⟨control_step control taken, kept control invariant taken⟩

theorem Reachable.control (reachable : relay.Reachable) : relay.Control := by
  rcases reachable with ⟨clientCodec, rules, idleTimeout, trace, runs⟩
  exact control_of_runs runs

end Steps

end RelaySession

end ReverseProxy
