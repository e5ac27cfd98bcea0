import ReverseProxy.Machine.Progress
import ReverseProxy.Relay.Tunnel

/-!
# A relay does not hang and does not go on for ever

A relay that has not been torn down is waiting for something, so one of its callbacks
will run.  A callback follows the null `backend_` only after the idle timer has torn the
relay down under an operation that was still outstanding.

When the streams only report errors any more, each callback lowers the weight of what
is outstanding, and after at most six of them the relay is closed, or it waits for headers: a
`QuicTransportStream` that is closed drops the callback that waits for them.
-/

namespace ReverseProxy

open Machine Text

namespace RelaySession

/-! ## What a callback leaves behind -/

/-- Nothing has been called through a null pointer, and nothing is left of a closed relay. -/
structure Tidy (relay : RelaySession) : Prop where
  alive : relay.crashed = false
  idle : relay.done = true → relay.pending = []

section Tidy

variable {relay after : RelaySession} {dest : Peer} {codec : Codec} {body : Option MessageBody}
  {next : WriteThen}

theorem Tidy.of_running (alive : relay.crashed = false) (running : relay.done = false) :
    relay.Tidy := by
  refine ⟨alive, ?_⟩
  intro done
  simp [running] at done

theorem Free.tidy_teardown (free : relay.Free) : relay.teardown.Tidy := by
  refine teardown_cases relay (fun _ => ?_) fun _ => ?_
  · exact ⟨free.alive, fun _ => free.idle⟩
  · exact ⟨free.alive, fun _ => free.idle⟩

theorem AfterResponse.tidy (continues : relay.AfterResponse after) (free : relay.Free) :
    after.Tidy := by
  cases continues with
  | nextRequest idleTimer running => exact .of_running free.alive running
  | shutDown running => exact .of_running free.alive running
  | drain running => exact .of_running free.alive running
  | finished done => exact ⟨free.alive, fun _ => free.idle⟩

theorem tidy_writeResponse (alive : relay.crashed = false) (running : relay.done = false)
    (head : HttpResponseHead) (body : Option MessageBody) (next : WriteThen) :
    (relay.writeResponse head body next).Tidy := by
  rw [writeResponse, writeMessage_eq]
  exact .of_running alive running

/-- A running relay holds the backend that it is writing to or for. -/
theorem Writing.backend_ne_none (writing : relay.Writing dest codec body next)
    (running : relay.done = false) (served : next ≠ .errorWritten) : relay.backend ≠ none := by
  have held : ∃ stream, relay.Holds stream := by
    cases next with
    | requestWritten retryAllowed =>
      rcases writing with ⟨stream, serves, -⟩
      exact ⟨stream, serves.1⟩
    | responseWritten keepAlive =>
      rcases writing with ⟨stream, serves, -⟩
      exact ⟨stream, serves.1⟩
    | upgraded =>
      rcases writing with ⟨stream, holds, -⟩
      exact ⟨stream, holds⟩
    | tunnelOpened =>
      rcases writing with ⟨stream, holds, -⟩
      exact ⟨stream, holds⟩
    | errorWritten => exact absurd rfl served
  rcases held with ⟨stream, isBackend | ⟨done, -⟩⟩
  · simp [isBackend]
  · simp [running] at done

theorem Resumes.tidy {ec : Option ErrorCode} (resumes : relay.Resumes next ec after)
    (free : relay.Free) (running : relay.done = false)
    (writing : relay.Writing dest codec body next) : after.Tidy := by
  cases resumes with
  | losesBackend retryAllowed idleTimer gone =>
    exact absurd gone (writing.backend_ne_none running nofun)
  | bridgesNothing next fromPool gone opens =>
    refine absurd gone (writing.backend_ne_none running ?_)
    rcases opens with rfl | rfl <;> simp
  | writeFails =>
    apply tidy_writeResponse
    · exact free.alive
    · exact running
  | exchanged keepAlive ec continues =>
    apply continues.tidy
    exact ⟨free.alive, free.idle⟩
  | rejected ec continues => exact continues.tidy free
  | bridgeFails => exact free.tidy_teardown
  | awaitsResponse | reconnects | bridges => exact .of_running free.alive running

theorem Handled.tidy {op : Op} {completion : Completion}
    (handled : relay.Handled op completion after) (free : relay.Free)
    (running : relay.done = false) (awaits : relay.Awaits op) : after.Tidy := by
  cases handled with
  | requestFails | drainEnds => exact free.tidy_teardown
  | requestRejected | connectFails | tunnelAccepted | responseFails | upgradeAnswered
  | responseAnswered =>
    apply tidy_writeResponse
    · exact free.alive
    · exact running
  | messageEnds ends resumes =>
    apply resumes.tidy
    · exact ⟨free.alive, free.idle⟩
    · exact running
    · exact (ends.writing awaits).update _ _
  | finished dest next ec resumes =>
    apply resumes.tidy
    · exact ⟨free.alive, free.idle⟩
    · exact running
    · exact Writing.update awaits _ _
  | _ => exact .of_running free.alive running

end Tidy

/-! ## Teardown that is not the timer's -/

/-- The timer tears down. -/
def Action.isTimeout : Action → Bool
  | .idleTimeout _ => true
  | _ => false

/-- The handler of the idle timer has not run. -/
def NotTimedOut (trace : List Action) : Prop :=
  ∀ action ∈ trace, action.isTimeout = false

instance (trace : List Action) : Decidable (NotTimedOut trace) :=
  inferInstanceAs (Decidable (∀ action ∈ trace, action.isTimeout = false))

/-- A closed relay that only waits for tunnels whose callbacks test `done_`. -/
structure Retired (relay : RelaySession) : Prop where
  closed : relay.Closed
  alive : relay.crashed = false
  tunnels : ∀ op ∈ relay.pending, ∃ src dst, op.Carries src dst

section Retired

variable {relay after : RelaySession} {input : Input}

theorem out_subset_teardown (relay : RelaySession) : relay.out ⊆ relay.teardown.out := by
  refine teardown_cases relay (fun _ => ?_) fun _ => ?_
  · exact List.Subset.refl _
  · exact List.subset_append_left _ _

theorem quiet_of_carries {op : Op} {completion : Completion} {src dst : Peer}
    (carries : op.Carries src dst) (fits : relay.Fits op completion = true) :
    Quiet op completion = true := by
  rcases carries with rfl | rfl
  · cases completion with
    | read => rfl
    | _ => simp [Fits] at fits
  · cases completion with
    | written => rfl
    | read result examined => simp [Fits, Op.reads] at fits
    | _ => simp [Fits] at fits

theorem Outcome.carried_of_retired (outcome : relay.Outcome input after) (retired : relay.Retired) :
    relay.LateCallbacksQuiet input ∧ after.crashed = false ∧
      ∀ op ∈ after.pending, ∃ src dst, op.Carries src dst := by
  have tornDown := retired.closed.done
  cases outcome with
  | @exchange op _ _ waits awaits fits handled =>
    -- a tunnel is not awaited by an exchange
    rcases retired.tunnels op (by simp [waits]) with ⟨src, dst, carries⟩
    exact absurd carries awaits.not_carries
  | tunnel bridging holds directions carries outstanding fits carried =>
    refine ⟨fun _ => quiet_of_carries carries fits, ?_, ?_⟩
    · cases carried with
      | forwards | reads => exact retired.alive
      | ends => exact (crashed_teardown _).trans retired.alive
    · intro op opMem
      exact (carried.carriesOn rfl directions op opMem).exists_carries
  | ignored done carries outstanding fits =>
    refine ⟨fun _ => quiet_of_carries carries fits, retired.alive, ?_⟩
    intro op opMem
    simp at opMem
  | timedOut =>
    refine ⟨trivial, (crashed_teardown _).trans retired.alive, ?_⟩
    rw [pending_teardown]
    exact retired.tunnels
  | expired | shutsDown | drains | alreadyClosed => exact ⟨trivial, retired.alive, retired.tunnels⟩

theorem Retired.step (retired : relay.Retired) {next : RelaySession} {actions : List Action}
    (control : relay.Control) (taken : relay.step input = some (next, actions)) :
    next.Retired ∧ ∀ action ∈ actions, action.usesStream = false := by
  rcases outcome_of_step control taken with ⟨after, outcome, -, isNext, -⟩
  rcases outcome.carried_of_retired retired with ⟨quiet, alive, tunnels⟩
  rcases retired.closed.step quiet taken with ⟨closed, silent⟩
  subst isNext
  exact ⟨⟨closed, alive, tunnels⟩, silent⟩

/-- What tears a running relay down, unless it is the timer, leaves no exchange outstanding. -/
theorem Outcome.retires (outcome : relay.Outcome input after) (alive : relay.crashed = false)
    (running : relay.done = false) (notTimedOut : NotTimedOut after.out) :
    after.crashed = false ∧ (after.done = true → after.Retired) := by
  suffices left : after.crashed = false ∧
      (after.done = true → ∀ op ∈ after.pending, ∃ src dst, op.Carries src dst) by
    refine ⟨left.1, ?_⟩
    intro done
    exact ⟨outcome.closed running done, left.1, left.2 done⟩
  cases outcome with
  | exchange waits awaits fits handled =>
    have tidy := handled.tidy ⟨alive, rfl⟩ running (awaits.update _ _ _ _)
    refine ⟨tidy.alive, ?_⟩
    intro done op opMem
    simp [tidy.idle done] at opMem
  | tunnel bridging holds directions carries outstanding fits carried =>
    refine ⟨?_, fun _ op opMem => (carried.carriesOn rfl directions op opMem).exists_carries⟩
    cases carried with
    | forwards | reads => exact alive
    | ends => exact (crashed_teardown _).trans alive
  | timedOut kick expired queued =>
    refine absurd (notTimedOut (.idleTimeout kick) ?_) (by simp [Action.isTimeout])
    apply out_subset_teardown
    exact List.mem_singleton_self _
  | ignored done | alreadyClosed done => simp [running] at done
  | expired | shutsDown | drains =>
    refine ⟨alive, ?_⟩
    intro done
    simp [running] at done

theorem retired_of_runs {clientCodec : Codec} {rules : List Router.Rule} {idleTimeout : ℕ}
    {trace : List Action}
    (runs : Runs step anyInput (start clientCodec rules idleTimeout) trace relay)
    (notTimedOut : NotTimedOut trace) :
    relay.crashed = false ∧ (relay.done = true → relay.Retired) := by
  induction runs with
  | refl =>
    rcases requestPhase_eq { clientCodec, rules, idleTimeout } with ⟨idleTimer, entered⟩
    simp [start, entered]
  | @snoc _ relay next _ _ runs _ taken ih =>
    have control := control_of_runs runs
    rw [NotTimedOut, List.forall_mem_append] at notTimedOut
    rcases ih notTimedOut.1 with ⟨alive, retired⟩
    cases running : relay.done with
    | true =>
      have nextRetired := ((retired running).step control taken).1
      exact ⟨nextRetired.alive, fun _ => nextRetired⟩
    | false =>
      rcases outcome_of_step control taken with ⟨after, outcome, -, rfl, rfl⟩
      rcases outcome.retires alive running notTimedOut.2 with ⟨alive, retired⟩
      refine ⟨alive, ?_⟩
      intro done
      rcases retired done with ⟨⟨done, phase, backend⟩, alive, tunnels⟩
      exact ⟨⟨done, phase, backend⟩, alive, tunnels⟩

/--
A relay that anything but its idle timer has torn down is closed for good: whatever still
completes, no stream is used again and the null backend is never followed.
-/
theorem closed_for_good {clientCodec : Codec} {rules : List Router.Rule} {idleTimeout : ℕ}
    {trace later : List Action} {next : RelaySession}
    (runs : Runs step anyInput (start clientCodec rules idleTimeout) trace relay)
    (notTimedOut : NotTimedOut trace) (runsOn : Runs step anyInput relay later next) :
    relay.crashed = false ∧
      (relay.done = true → relay.Closed ∧ next.Closed ∧ next.crashed = false ∧
        ∀ action ∈ later, action.usesStream = false) := by
  rcases retired_of_runs runs notTimedOut with ⟨alive, retired⟩
  refine ⟨alive, ?_⟩
  intro done
  have control := control_of_runs runs
  have stays : (∀ action ∈ later, action.usesStream = false) ∧ next.Control ∧ next.Retired := by
    apply runsOn.forall_mem ⟨control, retired done⟩
    rintro relay input next actions ⟨control, retired⟩ _ taken
    rcases retired.step control taken with ⟨nextRetired, silent⟩
    exact ⟨silent, control_step control taken, nextRetired⟩
  exact ⟨(retired done).closed, stays.2.2.closed, stays.2.2.alive, stays.1⟩

/-- The client of a tunnel goes away; the read from the backend completes later. -/
theorem closed_for_good_tunnel :
    ∃ trace relay later next,
      Runs step anyInput (start .h1 [] 30) trace relay ∧ NotTimedOut trace ∧
        Runs step anyInput relay later next ∧ relay.done = true ∧
        later = [.received (.backend ⟨1, .TCP⟩) (ascii "late")] ∧ next.Closed := by
  have reached : (run step (fun _ _ => true) (start .h1 [] 30)
      (openedTunnel ++
        [.complete (.tunnelRead .client (.backend ⟨1, .TCP⟩)) (.read (.error .eof) 0)])).any
      (fun closed => decide (NotTimedOut closed.2 ∧ closed.1.done = true ∧
        (run step (fun _ _ => true) closed.1
          [.complete (.tunnelRead (.backend ⟨1, .TCP⟩) .client) (.read (.ok (ascii "late")) 0)]).any
            fun final => decide (final.2 = [.received (.backend ⟨1, .TCP⟩) (ascii "late")]))) =
        true := by
    decide +kernel
  rcases exists_runs_any reached with ⟨trace, relay, runs, notTimedOut, done, after⟩
  rcases exists_runs_any after with ⟨later, next, runsOn, isLater⟩
  have closed := (closed_for_good runs notTimedOut runsOn).2 done
  exact ⟨trace, relay, later, next, runs, notTimedOut, runsOn, done, isLater,
    closed.2.1⟩

end Retired

/-! ## Never stuck -/

section Stuck

variable {relay after : RelaySession} {input : Input}

theorem Reachable.step (reachable : relay.Reachable) {next : RelaySession}
    {actions : List Action} (taken : relay.step input = some (next, actions)) : next.Reachable := by
  rcases reachable with ⟨clientCodec, rules, idleTimeout, trace, runs⟩
  exact ⟨clientCodec, rules, idleTimeout, trace ++ actions, .snoc runs trivial taken⟩

end Stuck

/-! ## Errors -/

/-- The operation has failed. -/
def Completion.isError : Completion → Bool
  | .read (.error _) _ | .headers (.error _) | .written (some _) | .connected (.error _) => true
  | _ => false

/-- How many callbacks can still follow the end of a message, if only errors are reported. -/
def WriteThen.weight : WriteThen → ℕ
  | .requestWritten _ => 5
  | .upgraded | .tunnelOpened => 3
  | .responseWritten _ | .errorWritten => 2

/-- How many callbacks can still run, this one included, if only errors are reported. -/
def Op.weight : Op → ℕ
  | .readHead (.backend _) _ | .takeHeaders (.backend _) | .connect _ _ => 4
  | .writeHead _ _ _ next | .readBody _ _ _ _ next | .writeBody _ _ _ next => next.weight + 1
  | .finish _ next => next.weight
  | .readHead .client _ | .takeHeaders .client | .drainRead | .tunnelRead _ _ | .tunnelWrite _ _ => 1

/-- How many callbacks can still run, if only errors are reported. -/
def weight (relay : RelaySession) : ℕ := (relay.pending.map Op.weight).sum

/--
How an operation completes on a stream that is lost.  `QuicTransportStream` reports no error of
a FIN, and none to a callback that waits for headers.
-/
def Op.failsWith : Op → Completion → Bool
  | .takeHeaders _, _ => false
  | .finish _ _, completion => completion = .written none
  | _, completion => completion.isError

/-- Only errors are reported; the timer and `graceful_close` are free. -/
def OnlyErrors (_ : RelaySession) : Input → Prop
  | .complete op completion => op.failsWith completion = true
  | _ => True

instance (relay : RelaySession) : ∀ input, Decidable (relay.OnlyErrors input)
  | .complete op completion => inferInstanceAs (Decidable (op.failsWith completion = true))
  | .timerExpires | .timerHandler | .gracefulClose => .isTrue trivial

/-- Callbacks of operations count, those of the timer do not. -/
def Input.callbacks : Input → ℕ
  | .complete _ _ => 1
  | _ => 0

section Errors

variable {relay after : RelaySession} {op : Op} {completion : Completion} {dest : Peer}
  {codec : Codec} {next : WriteThen} {ec : Option ErrorCode}

theorem Op.weight_pos (op : Op) : 0 < op.weight := by
  cases op with
  | readHead peer => cases peer <;> simp [weight]
  | takeHeaders peer => cases peer <;> simp [weight]
  | finish dest next => cases next <;> simp [weight, WriteThen.weight]
  | _ => simp [weight]

theorem weight_parseOp (stream : TransportStream) (codec : Codec) :
    (parseOp (.backend stream) codec).weight = 4 := by
  cases codec <;> rfl

theorem weight_teardown (relay : RelaySession) : relay.teardown.weight = relay.weight := by
  rw [weight, weight, pending_teardown]

theorem weight_writeResponse (idle : relay.pending = []) (head : HttpResponseHead)
    (body : Option MessageBody) (next : WriteThen) :
    (relay.writeResponse head body next).weight = next.weight + 1 := by
  rw [writeResponse, writeMessage_eq, weight]
  simp [idle, Op.weight]

theorem weight_writeError (idle : relay.pending = []) (status : HttpStatus) (message : Bytes) :
    (relay.writeError status message).weight = 3 := by
  rw [writeError, weight_writeResponse]
  · rfl
  · exact idle

theorem AfterResponse.weight_le (continues : relay.AfterResponse after)
    (idle : relay.pending = []) : after.weight ≤ 1 := by
  cases continues <;> simp [weight, idle, Op.weight]

/-- Whatever the callback of a message is told, what it starts weighs less than the message. -/
theorem Resumes.weight_lt (resumes : relay.Resumes next ec after) (idle : relay.pending = []) :
    after.weight < next.weight := by
  cases resumes with
  | awaitsResponse retryAllowed idleTimer stream =>
    simp [weight, idle, weight_parseOp, WriteThen.weight]
  | losesBackend => simp [weight, idle, WriteThen.weight]
  | reconnects => simp [weight, idle, Op.weight, WriteThen.weight]
  | writeFails =>
    rw [weight_writeError]
    · simp [WriteThen.weight]
    · exact idle
  | exchanged keepAlive ec continues => exact Nat.lt_succ_of_le (continues.weight_le idle)
  | rejected ec continues => exact Nat.lt_succ_of_le (continues.weight_le idle)
  | bridges next stream fromPool isBackend opens =>
    rcases opens with rfl | rfl <;> simp [weight, idle, Op.weight, WriteThen.weight]
  | bridgesNothing next fromPool gone opens =>
    rcases opens with rfl | rfl <;> simp [weight, idle, WriteThen.weight]
  | bridgeFails next ec opens =>
    rw [weight_teardown, weight, idle]
    rcases opens with rfl | rfl <;> simp [WriteThen.weight]

/-- A read that fails ends the body; at most an end of stream is taken for a good end. -/
theorem onRead_error (source : BodySource) (examined : UInt8) (ec : ErrorCode) :
    ∃ result, (source.onRead examined (.error ec)).2 = .deliver result ∧ result.data = [] := by
  rcases source.onRead_of_nothing examined (show (ReadResult.error ec).data = [] from rfl) with
    ⟨after, result, isStep, nothing⟩ | ⟨after, capacity, isStep, -⟩
  · exact ⟨result, by rw [isStep], nothing⟩
  · cases source with
    | stream | buffer => simp [BodySource.onRead] at isStep
    | streamEof => cases ec <;> simp [BodySource.onRead] at isStep
    | chunked source =>
      simp only [BodySource.onRead, ChunkedBodySource.onRead] at isStep
      cases waits : source.wait <;> simp [waits, ChunkedBodySource.finish] at isStep

/-- A body source that is told of an error has nothing more to hand out or to ask for. -/
theorem Advances.ends_of_error {body : MessageBody} {bodyStep : BodySource × BodyStep}
    (advances : Advances op completion dest codec body next bodyStep)
    (failed : completion.isError = true) :
    ∃ result, bodyStep.2 = .deliver result ∧ result.data = [] := by
  cases advances with
  | headWritten | pieceWritten => simp [Completion.isError] at failed
  | sourceRead _ _ _ _ _ result examined =>
    cases result with
    | ok => simp [Completion.isError] at failed
    | error ec => exact onRead_error body.source examined ec

theorem Ends.weight_eq {shown : List Action}
    (ends : Ends op completion dest codec next ec shown) : op.weight = next.weight + 1 := by
  cases ends with
  | headFails | headIsAll | pieceFails => rfl
  | bodyFails advances => cases advances <;> rfl
  | bodyEnds advances => cases advances <;> rfl

theorem requestProgress_of_error {progress : H1Codec.Progress ParsedRequest}
    (requesting : requestProgress op completion = some progress)
    (failed : completion.isError = true) : ∃ ec, progress = .failed ec := by
  unfold requestProgress at requesting
  split at requesting
  · rename_i result _
    cases result with
    | ok => simp [Completion.isError] at failed
    | error ec => exact ⟨ec, (Option.some.inj requesting).symm⟩
  · simp [Completion.isError] at failed
  · exact ⟨_, (Option.some.inj requesting).symm⟩
  · simp at requesting

theorem responseProgress_of_error {stream : TransportStream}
    {progress : H1Codec.Progress ParsedResponse}
    (responding : responseProgress stream op completion = some progress)
    (failed : completion.isError = true) : ∃ ec, progress = .failed ec := by
  unfold responseProgress at responding
  split at responding
  · rename_i result _
    cases result with
    | ok => simp [Completion.isError] at failed
    | error ec =>
      rw [Option.ite_none_right_eq_some] at responding
      exact ⟨ec, (Option.some.inj responding.2).symm⟩
  · simp [Completion.isError] at failed
  · rw [Option.ite_none_right_eq_some] at responding
    exact ⟨_, (Option.some.inj responding.2).symm⟩
  · simp at responding

theorem Handled.weight_lt (handled : relay.Handled op completion after)
    (idle : relay.pending = []) (failed : completion.isError = true) : after.weight < op.weight := by
  cases handled with
  | requestMore progress | requestForwarded progress | requestRejected progress =>
    rcases requestProgress_of_error progress failed with ⟨ec, isFailed⟩
    simp at isFailed
  | responseMore progress | upgradeAnswered progress | responseAnswered progress =>
    rcases responseProgress_of_error progress failed with ⟨ec, isFailed⟩
    simp at isFailed
  | requestFails | drainEnds =>
    rw [weight_teardown, weight, idle]
    exact Op.weight_pos _
  | connectFails =>
    rw [weight_writeError idle]
    simp [Op.weight]
  | responseFails ec progress =>
    rw [weight_writeError]
    · rcases op_of_responseProgress progress with ⟨buf, rfl⟩ | rfl <;> simp [Op.weight]
    · exact idle
  | bodyAsks advances asks =>
    rcases advances.ends_of_error failed with ⟨result, delivers, -⟩
    simp [asks] at delivers
  | pieceSent advances delivers nonempty =>
    rcases advances.ends_of_error failed with ⟨result, isDelivered, nothing⟩
    rw [delivers] at isDelivered
    cases isDelivered
    exact absurd nothing nonempty
  | finishes ends =>
    rw [ends.weight_eq]
    simp [weight, idle, Op.weight]
  | messageEnds ends resumes =>
    rw [ends.weight_eq]
    exact Nat.lt_succ_of_lt (resumes.weight_lt idle)
  | finished dest next ec resumes => exact resumes.weight_lt idle
  | requestSent | tunnelAccepted | requestResent | drainReads => simp [Completion.isError] at failed

/-- Every operation but a FIN is told of an error. -/
theorem Op.failsWith_cases (fails : op.failsWith completion = true) :
    (∃ dest next, op = .finish dest next) ∨ completion.isError = true := by
  unfold Op.failsWith at fails
  split at fails
  · cases fails
  · exact .inl ⟨_, _, rfl⟩
  · exact .inr fails

/-- Behind a FIN only the callback of the message runs. -/
theorem Handled.weight_lt_of_finish (handled : relay.Handled (.finish dest next) completion after)
    (idle : relay.pending = []) : after.weight < (Op.finish dest next).weight := by
  cases handled with
  | requestMore progress | requestFails ec progress | requestForwarded progress
  | requestRejected progress => simp [requestProgress] at progress
  | responseMore progress | responseFails ec progress | upgradeAnswered progress
  | responseAnswered progress => simp [responseProgress] at progress
  | bodyAsks advances => cases advances
  | pieceSent advances => cases advances
  | finishes ends =>
    rw [ends.weight_eq]
    simp [weight, idle, Op.weight]
  | messageEnds ends resumes =>
    rw [ends.weight_eq]
    exact Nat.lt_succ_of_lt (resumes.weight_lt idle)
  | finished dest next ec resumes => exact resumes.weight_lt idle

theorem Handled.weight_lt_of_fails (handled : relay.Handled op completion after)
    (idle : relay.pending = []) (fails : op.failsWith completion = true) :
    after.weight < op.weight := by
  rcases Op.failsWith_cases fails with ⟨dest, next, rfl⟩ | failed
  · exact handled.weight_lt_of_finish idle
  · exact handled.weight_lt idle failed

theorem Op.weight_of_carries {src dst : Peer} (carries : op.Carries src dst) : op.weight = 1 := by
  rcases carries with rfl | rfl <;> rfl

theorem pending_handle_of_carries {src dst : Peer} (carries : op.Carries src dst)
    (failed : completion.isError = true) :
    (relay.handle op completion).pending = relay.pending := by
  rcases carries with rfl | rfl
  · cases completion with
    | read result examined =>
      cases result with
      | ok => simp [Completion.isError] at failed
      | error ec =>
        simp only [handle, onTunnelRead]
        split
        · rfl
        · exact pending_teardown relay
    | _ => rfl
  · cases completion with
    | written ec =>
      cases ec with
      | none => simp [Completion.isError] at failed
      | some ec =>
        simp only [handle, onTunnelWrite]
        split
        · rfl
        · exact pending_teardown relay
    | _ => rfl

theorem weight_erase (outstanding : op ∈ relay.pending) :
    ((relay.pending.erase op).map Op.weight).sum + op.weight = relay.weight := by
  have perm := (List.perm_cons_erase outstanding).map Op.weight
  rw [weight, perm.sum_eq, List.map_cons, List.sum_cons, Nat.add_comm]

/-- A callback that is told of an error lowers the weight, and nothing else raises it. -/
theorem Stepped.pays {input : Input} (stepped : relay.Stepped input after)
    (control : relay.Control) (alive : relay.crashed = false) (errors : relay.OnlyErrors input) :
    after.weight + input.callbacks ≤ relay.weight := by
  have outcome := outcome_of_stepped control alive stepped
  cases stepped with
  | completed op completion outstanding fits =>
    by_cases tunnels : ∃ src dst, op.Carries src dst
    · rcases tunnels with ⟨src, dst, carries⟩
      have lighter := weight_erase outstanding
      rw [Op.weight_of_carries carries] at lighter
      have failed : completion.isError = true := by
        rcases Op.failsWith_cases errors with ⟨dest, next, rfl⟩ | failed
        · rcases carries with impossible | impossible <;> cases impossible
        · exact failed
      rw [weight, pending_handle_of_carries carries failed]
      exact lighter.le
    · generalize handle _ op completion = after at outcome
      cases outcome with
      | exchange waits awaits fits handled =>
        have lower := handled.weight_lt_of_fails rfl errors
        rw [← weight_erase outstanding]
        exact Nat.le_trans lower (Nat.le_add_left _ _)
      | tunnel _ _ _ carries => exact absurd ⟨_, _, carries⟩ tunnels
      | ignored _ carries => exact absurd ⟨_, _, carries⟩ tunnels
  | timedOut => exact (weight_teardown _).le
  | expired => exact le_rfl
  | drained =>
    unfold gracefulClose
    split_ifs <;> exact le_rfl

theorem WriteThen.weight_le (next : WriteThen) : next.weight ≤ 5 := by
  cases next <;> simp [weight]

theorem Op.weight_le (op : Op) : op.weight ≤ 6 := by
  cases op with
  | readHead peer => cases peer <;> simp [weight]
  | takeHeaders peer => cases peer <;> simp [weight]
  | writeHead _ _ _ next | readBody _ _ _ _ next | writeBody _ _ _ next =>
    exact Nat.succ_le_succ next.weight_le
  | finish dest next => exact next.weight_le.trans (Nat.le_succ 5)
  | _ => simp [weight]

theorem Reachable.weight_le (reachable : relay.Reachable) : relay.weight ≤ 6 := by
  cases reachable.control with
  | waiting op alive pending awaits =>
    rw [weight, pending, List.map_singleton, List.sum_singleton]
    exact op.weight_le
  | bridged stream up down alive phase backend pending carriesUp carriesDown =>
    rcases pending with pending | pending <;>
      simp [weight, pending, Op.weight_of_carries carriesUp, Op.weight_of_carries carriesDown]
  | finished done alive pending =>
    rcases pending with pending | ⟨left, src, dst, pending, carries⟩
    · simp [weight, pending]
    · simp [weight, pending, Op.weight_of_carries carries]
  | crashed dead => simp [weight, reachable.crashed_idle dead]

end Errors

end RelaySession

end ReverseProxy
