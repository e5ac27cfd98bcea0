import ReverseProxy.Relay.Control
import ReverseProxy.Machine.Run

/-!
# The idle timer of a relay

`kick_idle_timer` sets the timer anew and waits on it; the handler of a wait tears the
relay down unless it is told that the wait was cancelled.  A wait that has expired is
not cancelled any more: its handler is in the queue and runs without an error code, even
if the relay has been kicked in the meantime.

Callbacks change the timer only through kicks and through teardown (`touched_handle`).
-/

namespace ReverseProxy

open Machine

namespace RelaySession

/-- What the calls of `kick_idle_timer` and `teardown` in a callback do to the timer. -/
inductive IdleTimer.Touched (timer : IdleTimer) : IdleTimer → Prop where
  | refl : Touched timer timer
  | kicked {later : IdleTimer} (touched : Touched timer later) :
      Touched timer { later with kicks := later.kicks + 1, armed := some (later.kicks + 1) }
  | disarmed {later : IdleTimer} (touched : Touched timer later) :
      Touched timer { later with armed := none }

/-- The timer of the relay has only been kicked and disarmed. -/
def TimerTouched (before after : RelaySession) : Prop :=
  before.idleTimer.Touched after.idleTimer

theorem IdleTimer.Touched.trans {first second third : IdleTimer} (touched : first.Touched second)
    (later : second.Touched third) : first.Touched third := by
  induction later with
  | refl => exact touched
  | kicked _ ih => exact .kicked ih
  | disarmed _ ih => exact .disarmed ih

theorem TimerTouched.of_eq {before after : RelaySession}
    (same : after.idleTimer = before.idleTimer) : before.TimerTouched after := by
  rw [TimerTouched, same]
  exact .refl

theorem TimerTouched.trans {first second third : RelaySession} (touched : first.TimerTouched second)
    (later : second.TimerTouched third) : first.TimerTouched third :=
  IdleTimer.Touched.trans touched later

section Helpers

variable (relay : RelaySession)

theorem touched_kickIdleTimer : relay.TimerTouched relay.kickIdleTimer := by
  unfold kickIdleTimer
  split
  · exact .refl
  · exact .kicked .refl

theorem touched_teardown : relay.TimerTouched relay.teardown := by
  refine teardown_cases relay (fun _ => ?_) fun _ => ?_
  · exact .refl
  · exact .disarmed .refl

theorem idleTimer_gotoPhase (phase : Phase) :
    (relay.gotoPhase phase).idleTimer = relay.idleTimer := by
  rw [gotoPhase_eq]

theorem idleTimer_closeBackend : relay.closeBackend.idleTimer = relay.idleTimer := by
  rw [closeBackend_eq]

theorem idleTimer_finishBackend (keepAlive : Bool) :
    (relay.finishBackend keepAlive).idleTimer = relay.idleTimer := by
  rw [finishBackend_eq]

theorem idleTimer_writeMessage (dest : Peer) (codec : Codec) (bytes : Text.Bytes)
    (headers : HeaderList) (body : Option MessageBody) (next : WriteThen) :
    (relay.writeMessage dest codec bytes headers body next).idleTimer = relay.idleTimer := by
  rw [writeMessage_eq]

theorem idleTimer_writeResponse (head : HttpResponseHead) (body : Option MessageBody)
    (next : WriteThen) : (relay.writeResponse head body next).idleTimer = relay.idleTimer :=
  idleTimer_writeMessage ..

theorem idleTimer_writeError (status : HttpStatus) (message : Text.Bytes) :
    (relay.writeError status message).idleTimer = relay.idleTimer :=
  idleTimer_writeResponse ..

theorem idleTimer_drainClient : relay.drainClient.idleTimer = relay.idleTimer := by
  unfold drainClient
  split <;> rfl

theorem idleTimer_gracefullyCloseClient :
    relay.gracefullyCloseClient.idleTimer = relay.idleTimer := by
  unfold gracefullyCloseClient
  split
  · rfl
  · exact idleTimer_drainClient _

theorem idleTimer_gracefulClose : relay.gracefulClose.idleTimer = relay.idleTimer := by
  unfold gracefulClose
  split_ifs <;> rfl

theorem idleTimer_pumpBytes (src dst : Peer) :
    (relay.pumpBytes src dst).idleTimer = relay.idleTimer := rfl

theorem idleTimer_bridgeMode : relay.bridgeMode.idleTimer = relay.idleTimer := by
  have phase := idleTimer_gotoPhase relay .bridge
  simp only [bridgeMode]
  generalize relay.gotoPhase .bridge = bridging at phase ⊢
  split
  · exact phase
  · rw [idleTimer_pumpBytes, idleTimer_pumpBytes]
    exact phase

theorem idleTimer_sendBackendRequest (retryAllowed : Bool) :
    (relay.sendBackendRequest retryAllowed).idleTimer = relay.idleTimer := by
  unfold sendBackendRequest
  split
  · exact idleTimer_writeMessage ..
  · rfl

theorem idleTimer_reconnectBackendFresh : relay.reconnectBackendFresh.idleTimer = relay.idleTimer :=
  idleTimer_closeBackend relay

theorem idleTimer_asyncParseRequest : relay.asyncParseRequest.idleTimer = relay.idleTimer := by
  unfold asyncParseRequest
  split <;> rfl

theorem idleTimer_asyncParseResponse : relay.asyncParseResponse.idleTimer = relay.idleTimer := by
  unfold asyncParseResponse
  split
  · rfl
  · split <;> rfl

variable {relay} in
theorem TimerTouched.emit {before : RelaySession} (touched : before.TimerTouched relay)
    (action : Action) : before.TimerTouched (relay.emit action) :=
  touched.trans .refl

variable {relay} in
theorem TimerTouched.connect {before : RelaySession} (touched : before.TimerTouched relay)
    (target : ConnectTarget) (next : ConnectThen) :
    before.TimerTouched (relay.connect target next) :=
  touched.trans .refl

variable {relay} in
theorem TimerTouched.readFrom {before : RelaySession} (touched : before.TimerTouched relay)
    (peer : Peer) (capacity : ℕ) (op : Op) :
    before.TimerTouched (relay.readFrom peer capacity op) :=
  touched.trans .refl

variable {relay} in
theorem TimerTouched.writeTo {before : RelaySession} (touched : before.TimerTouched relay)
    (peer : Peer) (data : Text.Bytes) (op : Op) :
    before.TimerTouched (relay.writeTo peer data op) :=
  touched.trans .refl

theorem touched_requestPhase : relay.TimerTouched relay.requestPhase :=
  ((TimerTouched.of_eq (idleTimer_gotoPhase relay .request)).trans
    (touched_kickIdleTimer _)).trans (.of_eq (idleTimer_asyncParseRequest _))

theorem touched_responsePhase : relay.TimerTouched relay.responsePhase :=
  ((TimerTouched.of_eq (idleTimer_gotoPhase relay .response)).trans
    (touched_kickIdleTimer _)).trans (.of_eq (idleTimer_asyncParseResponse _))

theorem touched_afterClientResponse : relay.TimerTouched relay.afterClientResponse := by
  unfold afterClientResponse
  split_ifs
  · exact .of_eq (idleTimer_gracefullyCloseClient relay)
  · exact touched_requestPhase relay
  · exact .of_eq (idleTimer_gracefullyCloseClient relay)
  · exact .of_eq (idleTimer_drainClient relay)

theorem touched_resume (next : WriteThen) (ec : Option ErrorCode) :
    relay.TimerTouched (relay.resume next ec) := by
  unfold resume
  split
  · split
    · exact .of_eq (idleTimer_reconnectBackendFresh relay)
    · exact .of_eq ((idleTimer_writeError _ _ _).trans (idleTimer_closeBackend relay))
  · exact (touched_kickIdleTimer { relay with pendingHead := none, pendingBody := none }).trans
      (touched_responsePhase _)
  · exact (TimerTouched.of_eq (idleTimer_finishBackend relay _)).trans
      (touched_afterClientResponse _)
  · exact touched_teardown relay
  · exact .of_eq (idleTimer_bridgeMode { relay with backendFromPool := false })
  · exact touched_teardown relay
  · exact .of_eq (idleTimer_bridgeMode relay)
  · exact touched_afterClientResponse relay

theorem touched_endMessage (dest : Peer) (codec : Codec) (next : WriteThen)
    (ec : Option ErrorCode) : relay.TimerTouched (relay.endMessage dest codec next ec) := by
  cases codec with
  | h1 => exact touched_resume (relay.emit (.messageDone dest ec)) next ec
  | h3 => exact .refl

theorem touched_pumpStep (dest : Peer) (codec : Codec) (body : MessageBody) (next : WriteThen)
    (bodyStep : BodySource × BodyStep) :
    relay.TimerTouched (relay.pumpStep dest codec body next bodyStep) := by
  unfold pumpStep
  split
  · exact .refl
  · exact touched_endMessage ..
  · exact touched_endMessage (relay.emit (.exhausted dest)) dest codec next none
  · exact .refl

theorem touched_onHeadWritten (dest : Peer) (codec : Codec) (body : Option MessageBody)
    (next : WriteThen) (ec : Option ErrorCode) :
    relay.TimerTouched (relay.onHeadWritten dest codec body next ec) := by
  unfold onHeadWritten
  split
  · exact touched_pumpStep ..
  · exact touched_endMessage ..

theorem touched_onPieceWritten (dest : Peer) (codec : Codec) (body : MessageBody)
    (next : WriteThen) (ec : Option ErrorCode) :
    relay.TimerTouched (relay.onPieceWritten dest codec body next ec) := by
  unfold onPieceWritten
  split
  · exact touched_pumpStep ..
  · exact touched_endMessage ..

theorem touched_useBackend (stream : TransportStream) (endpoint : BackendEndpoint)
    (fromPool : Bool) (head : HttpRequestHead) (body : Option BodySource) :
    relay.TimerTouched (relay.useBackend stream endpoint fromPool head body) :=
  (touched_kickIdleTimer { relay with backend := some stream, backendEndpoint := endpoint }).trans
    (.of_eq (idleTimer_sendBackendRequest _ true))

theorem touched_onConnected (next : ConnectThen)
    (result : Except ErrorCode (TransportStream × BackendEndpoint × Bool)) :
    relay.TimerTouched (relay.onConnected next result) := by
  unfold onConnected
  split
  · exact .of_eq (idleTimer_writeError ..)
  · exact touched_useBackend ..
  · exact .of_eq (idleTimer_writeError ..)
  · exact .of_eq (idleTimer_writeResponse ..)
  · exact .of_eq (idleTimer_writeError ..)
  · exact .of_eq (idleTimer_sendBackendRequest ..)

theorem touched_onRequest (parsed : ParsedRequest) :
    relay.TimerTouched (relay.onRequest parsed) := by
  have phase := idleTimer_gotoPhase relay .forward
  unfold onRequest
  generalize relay.gotoPhase .forward = forwarding at phase ⊢
  have kicked (stats : Stats) (keepAlive isUpgrade : Bool) (method version : Text.Bytes) :
      relay.TimerTouched (kickIdleTimer
        { forwarding with
          stats, clientKeepAlive := keepAlive, requestMethod := method, clientVersion := version
          requestIsUpgrade := isUpgrade }) := by
    refine TimerTouched.trans ?_ (touched_kickIdleTimer _)
    exact .of_eq phase
  dsimp only
  split
  · exact ((kicked ..).emit _).connect _ _
  · exact ((kicked ..).emit _).connect _ _
  · exact ((kicked ..).emit _).connect _ _
  · exact ((kicked ..).emit _).trans (.of_eq (idleTimer_writeError ..))

theorem touched_onResponse (stream : TransportStream) (parsed : ParsedResponse) :
    relay.TimerTouched (relay.onResponse stream parsed) := by
  have kicked := touched_kickIdleTimer
    { relay with stats := relay.stats.countResponse parsed.head.statusCode }
  unfold onResponse
  dsimp only
  split
  · exact (TimerTouched.emit kicked _).trans (.of_eq (idleTimer_writeResponse ..))
  · exact (TimerTouched.emit kicked _).trans (.of_eq (idleTimer_writeResponse ..))

theorem touched_onResponseError : relay.TimerTouched relay.onResponseError :=
  .of_eq ((idleTimer_writeError _ _ _).trans (idleTimer_closeBackend relay))

theorem touched_onRequestRead (buf : Text.Bytes) (result : ReadResult) :
    relay.TimerTouched (relay.onRequestRead buf result) := by
  unfold onRequestRead
  split
  · exact .refl
  · exact touched_teardown relay
  · exact touched_onRequest relay _

theorem touched_onResponseRead (stream : TransportStream) (buf : Text.Bytes)
    (result : ReadResult) : relay.TimerTouched (relay.onResponseRead stream buf result) := by
  unfold onResponseRead
  split
  · exact .refl
  · exact touched_onResponseError relay
  · exact touched_onResponse relay stream _

theorem touched_onRequestHeaders (result : Except ErrorCode HeaderList) :
    relay.TimerTouched (relay.onRequestHeaders result) := by
  cases result with
  | error ec => exact touched_teardown relay
  | ok raw => exact touched_onRequest relay _

theorem touched_onResponseHeaders (stream : TransportStream)
    (result : Except ErrorCode HeaderList) :
    relay.TimerTouched (relay.onResponseHeaders stream result) := by
  cases result with
  | error ec => exact touched_onResponseError relay
  | ok raw => exact touched_onResponse relay stream _

theorem touched_onTunnelRead (src dst : Peer) (result : ReadResult) :
    relay.TimerTouched (relay.onTunnelRead src dst result) := by
  unfold onTunnelRead
  split
  · exact .refl
  · split
    · exact touched_teardown relay
    · exact touched_teardown relay
    · exact (touched_kickIdleTimer relay).writeTo _ _ _

theorem touched_onTunnelWrite (src dst : Peer) (ec : Option ErrorCode) :
    relay.TimerTouched (relay.onTunnelWrite src dst ec) := by
  unfold onTunnelWrite
  split
  · exact .refl
  · split
    · exact touched_teardown relay
    · exact (touched_kickIdleTimer relay).readFrom _ _ _

theorem touched_onDrainRead (result : ReadResult) :
    relay.TimerTouched (relay.onDrainRead result) := by
  unfold onDrainRead
  split
  · exact .refl
  · split
    · exact touched_teardown relay
    · exact touched_teardown relay
    · exact (touched_kickIdleTimer relay).trans (.of_eq (idleTimer_drainClient _))

theorem touched_handle (op : Op) (completion : Completion) :
    relay.TimerTouched (relay.handle op completion) := by
  unfold handle
  split
  · exact touched_onRequestRead ..
  · exact touched_onResponseRead ..
  · exact touched_onRequestHeaders ..
  · exact touched_onResponseHeaders ..
  · exact touched_onConnected ..
  · exact touched_onHeadWritten ..
  · exact touched_pumpStep ..
  · exact touched_onPieceWritten ..
  · exact touched_resume (relay.emit (.messageDone _ _)) _ _
  · exact touched_onTunnelRead ..
  · exact touched_onTunnelWrite ..
  · exact touched_onDrainRead ..
  · exact .refl

end Helpers

/-! ## Steps -/

theorem IdleTimer.Touched.expired_eq {timer later : IdleTimer} (touched : timer.Touched later) :
    later.expired = timer.expired := by
  induction touched with
  | refl => rfl
  | kicked _ ih => exact ih
  | disarmed _ ih => exact ih

theorem IdleTimer.Touched.kicks_le {timer later : IdleTimer} (touched : timer.Touched later) :
    timer.kicks ≤ later.kicks := by
  induction touched with
  | refl => exact le_rfl
  | kicked _ ih => exact Nat.le_succ_of_le ih
  | disarmed _ ih => exact ih

/-- A wait that is outstanding is the one before, or that of the last kick. -/
theorem IdleTimer.Touched.armed_cases {timer later : IdleTimer} (touched : timer.Touched later)
    {wait : ℕ} (armed : later.armed = some wait) :
    later.kicks = timer.kicks ∧ timer.armed = some wait ∨
      timer.kicks < later.kicks ∧ wait = later.kicks := by
  cases touched with
  | refl => exact .inl ⟨rfl, armed⟩
  | kicked touched => exact .inr ⟨Nat.lt_succ_of_le touched.kicks_le, (Option.some.inj armed).symm⟩
  | disarmed => cases armed

/-- What a step does to the timer. -/
inductive TimerStep (timer : IdleTimer) : Input → IdleTimer → Prop where
  | touched {input : Input} {later : IdleTimer} (other : input ≠ .timerHandler)
      (touched : timer.Touched later) : TimerStep timer input later
  | expired (wait : ℕ) (armed : timer.armed = some wait) :
      TimerStep timer .timerExpires
        { timer with armed := none, expired := timer.expired ++ [wait] }
  | handled {later : IdleTimer} (wait : ℕ) (rest : List ℕ) (queued : timer.expired = wait :: rest)
      (touched : IdleTimer.Touched { timer with expired := rest } later) :
      TimerStep timer .timerHandler later

theorem timerStep_of_step {relay next : RelaySession} {input : Input} {actions : List Action}
    (stepped : relay.step input = some (next, actions)) :
    TimerStep relay.idleTimer input next.idleTimer := by
  rcases stepped_of_step stepped with ⟨after, -, outcome, rfl, -⟩
  cases outcome with
  | completed op completion outstanding fits =>
    refine .touched nofun ?_
    exact touched_handle
      { relay with pending := relay.pending.erase op, out := arrivals op completion } op completion
  | expired wait armed => exact .expired wait armed
  | timedOut wait rest queued =>
    refine .handled wait rest queued ?_
    exact touched_teardown
      { relay with
        idleTimer := { relay.idleTimer with expired := rest }, out := [.idleTimeout wait] }
  | drained =>
    refine .touched nofun ?_
    exact TimerTouched.of_eq (idleTimer_gracefulClose { relay with out := [] })

/-! ## Runs -/

/-- A transition of the relay. -/
abbrev Taken := Machine.Transition RelaySession Input Action

/-- The relay is kicked in this step. -/
def Kicks (taken : Taken) : Prop :=
  taken.source.idleTimer.kicks ≠ taken.target.idleTimer.kicks

/-- The handler of a wait that has expired runs in this step; it calls `teardown`. -/
def Fires (taken : Taken) (wait : ℕ) : Prop :=
  taken.input = .timerHandler ∧ taken.source.idleTimer.expired.head? = some wait

/-- No kick has happened since the one that started this wait. -/
def LastKicked (relay : RelaySession) (wait : ℕ) : Prop :=
  relay.idleTimer.kicks = wait

/-- No kick has happened while the handler of this wait was in the queue. -/
def Undisturbed (log : List Taken) (wait : ℕ) : Prop :=
  ∀ taken ∈ log, wait ∈ taken.source.idleTimer.expired → ¬Kicks taken

/-- A wait expires as the last one kicked, and stays that until the next kick. -/
structure Timed (log : List Taken) (relay : RelaySession) : Prop where
  past : ∀ taken ∈ log, ∀ wait ∈ taken.source.idleTimer.expired, wait ≤ relay.idleTimer.kicks
  armed : ∀ wait, relay.idleTimer.armed = some wait →
    wait = relay.idleTimer.kicks ∧ wait ∉ relay.idleTimer.expired ∧
      ∀ taken ∈ log, wait ∉ taken.source.idleTimer.expired
  queued : ∀ wait ∈ relay.idleTimer.expired,
    wait ≤ relay.idleTimer.kicks ∧ (relay.LastKicked wait ↔ Undisturbed log wait)

theorem TimerStep.kicks_le {timer later : IdleTimer} {input : Input}
    (timerStep : TimerStep timer input later) : timer.kicks ≤ later.kicks := by
  cases timerStep with
  | touched other touched => exact touched.kicks_le
  | expired wait armed => exact le_rfl
  | handled wait rest queued touched => exact touched.kicks_le

theorem undisturbed_concat_iff {log : List Taken} {taken : Taken} {wait : ℕ} :
    Undisturbed (log ++ [taken]) wait ↔
      Undisturbed log wait ∧ (wait ∈ taken.source.idleTimer.expired → ¬Kicks taken) := by
  simp only [Undisturbed, List.forall_mem_append, List.forall_mem_singleton]

section Step

variable {log : List Taken} {relay next : RelaySession} {input : Input} {actions : List Action}

theorem Timed.past_concat (timed : Timed log relay)
    (later : relay.idleTimer.kicks ≤ next.idleTimer.kicks) :
    ∀ taken ∈ log ++ [⟨relay, input, actions, next⟩],
      ∀ wait ∈ taken.source.idleTimer.expired, wait ≤ next.idleTimer.kicks := by
  rw [List.forall_mem_append, List.forall_mem_singleton]
  refine ⟨?_, ?_⟩
  · intro taken takenMem wait expired
    exact (timed.past taken takenMem wait expired).trans later
  · intro wait expired
    exact (timed.queued wait expired).1.trans later

/-- A handler that was in the queue before the step has the same standing behind it. -/
theorem Timed.queued_concat (timed : Timed log relay)
    (later : relay.idleTimer.kicks ≤ next.idleTimer.kicks) {wait : ℕ}
    (queued : wait ∈ relay.idleTimer.expired) :
    wait ≤ next.idleTimer.kicks ∧
      (next.LastKicked wait ↔ Undisturbed (log ++ [⟨relay, input, actions, next⟩]) wait) := by
  rcases timed.queued wait queued with ⟨bound, standing⟩
  refine ⟨bound.trans later, ?_⟩
  rw [undisturbed_concat_iff, ← standing]
  simp only [LastKicked, Kicks, queued, forall_const, not_not]
  omega

/-- A wait that expires now has been kicked last, and nothing can have disturbed it. -/
theorem Timed.expired_concat (timed : Timed log relay) {wait : ℕ}
    (wasArmed : relay.idleTimer.armed = some wait)
    (kicks : next.idleTimer.kicks = relay.idleTimer.kicks) :
    wait ≤ next.idleTimer.kicks ∧
      (next.LastKicked wait ↔ Undisturbed (log ++ [⟨relay, input, actions, next⟩]) wait) := by
  rcases timed.armed wait wasArmed with ⟨isLast, notQueued, notPast⟩
  have undisturbed : Undisturbed (log ++ [⟨relay, input, actions, next⟩]) wait := by
    rw [undisturbed_concat_iff]
    refine ⟨?_, ?_⟩
    · intro taken takenMem past
      exact absurd past (notPast taken takenMem)
    · intro past
      exact absurd past notQueued
  have last : next.LastKicked wait := kicks.trans isLast.symm
  exact ⟨last.ge, iff_of_true last undisturbed⟩

/-- The wait that is outstanding behind a step has not expired yet. -/
theorem Timed.armed_concat (timed : Timed log relay) {expired : List ℕ}
    (queue : expired ⊆ relay.idleTimer.expired)
    (touched : IdleTimer.Touched { relay.idleTimer with expired } next.idleTimer) {wait : ℕ}
    (armed : next.idleTimer.armed = some wait) :
    wait = next.idleTimer.kicks ∧ wait ∉ next.idleTimer.expired ∧
      ∀ taken ∈ log ++ [⟨relay, input, actions, next⟩],
        wait ∉ taken.source.idleTimer.expired := by
  rw [List.forall_mem_append, List.forall_mem_singleton, touched.expired_eq]
  rcases touched.armed_cases armed with ⟨same, before⟩ | ⟨more, last⟩
  · rcases timed.armed wait before with ⟨isLast, notQueued, notPast⟩
    refine ⟨isLast.trans same.symm, ?_, notPast, notQueued⟩
    intro queued
    exact notQueued (queue queued)
  · have fresh : ∀ old ≤ relay.idleTimer.kicks, wait ≠ old := by
      intro old bound
      simp only at more
      omega
    refine ⟨last, ?_, ?_, ?_⟩
    · intro queued
      exact fresh wait (timed.queued wait (queue queued)).1 rfl
    · intro taken takenMem queued
      exact fresh wait (timed.past taken takenMem wait queued) rfl
    · intro queued
      exact fresh wait (timed.queued wait queued).1 rfl

theorem Timed.concat (timed : Timed log relay)
    (timerStep : TimerStep relay.idleTimer input next.idleTimer) :
    Timed (log ++ [⟨relay, input, actions, next⟩]) next := by
  have later := timerStep.kicks_le
  refine ⟨timed.past_concat later, ?_, ?_⟩
  · intro wait armed
    obtain ⟨timer, isTimer⟩ : ∃ timer, next.idleTimer = timer := ⟨_, rfl⟩
    rw [isTimer] at timerStep
    cases timerStep with
    | touched other touched =>
      rw [← isTimer] at touched
      exact timed.armed_concat (List.Subset.refl _) touched armed
    | expired expiredWait wasArmed =>
      rw [isTimer] at armed
      cases armed
    | handled firedWait rest queue touched =>
      rw [← isTimer] at touched
      refine timed.armed_concat ?_ touched armed
      rw [queue]
      exact List.subset_cons_self _ _
  · intro wait queued
    obtain ⟨timer, isTimer⟩ : ∃ timer, next.idleTimer = timer := ⟨_, rfl⟩
    rw [isTimer] at timerStep
    cases timerStep with
    | touched other touched =>
      rw [isTimer, touched.expired_eq] at queued
      exact timed.queued_concat later queued
    | expired expiredWait wasArmed =>
      rw [isTimer] at queued
      rcases List.mem_append.mp queued with before | isNew
      · exact timed.queued_concat later before
      · rw [List.mem_singleton.mp isNew]
        have kicks : next.idleTimer.kicks = relay.idleTimer.kicks := by rw [isTimer]
        exact timed.expired_concat wasArmed kicks
    | handled firedWait rest queue touched =>
      rw [isTimer, touched.expired_eq] at queued
      refine timed.queued_concat later ?_
      rw [queue]
      exact List.mem_cons_of_mem _ queued

end Step

theorem timed_of_runs {clientCodec : Codec} {rules : List Router.Rule} {idleTimeout : ℕ}
    {log : List Taken} {relay : RelaySession} (runs : Runs (logged step) anyInput
      (start clientCodec rules idleTimeout) log relay) : Timed log relay := by
  apply Runs.invariant ?_ ?_ runs
  · have touched := touched_requestPhase { clientCodec, rules, idleTimeout }
    have queue : (start clientCodec rules idleTimeout).idleTimer.expired = [] :=
      touched.expired_eq
    refine ⟨by simp, ?_, by simp [queue]⟩
    intro wait armed
    rcases touched.armed_cases armed with ⟨-, before⟩ | ⟨-, last⟩
    · cases before
    · exact ⟨last, by simp [queue], by simp⟩
  · intro log relay input next actions timed _ stepped
    rcases logged_eq_some_iff.mp stepped with ⟨actions, taken, rfl⟩
    exact timed.concat (timerStep_of_step taken)

/--
A handler of the idle timer that tears the relay down does so on idleness exactly if no
kick came while it was in the queue.
-/
theorem fires_idle_iff {clientCodec : Codec} {rules : List Router.Rule} {idleTimeout : ℕ}
    {log : List Taken} {relay : RelaySession}
    (runs : Runs (logged step) anyInput
      (start clientCodec rules idleTimeout) log relay) :
    (∀ taken ∈ log, ∀ wait, Fires taken wait → taken.source.LastKicked wait) ↔
      ∀ before taken after wait, log = before ++ taken :: after → Fires taken wait →
        Undisturbed before wait := by
  have standing : ∀ before taken after wait, log = before ++ taken :: after →
      Fires taken wait → (taken.source.LastKicked wait ↔ Undisturbed before wait) := by
    intro before taken after wait split fires
    have timed := timed_of_runs (runs.before_logged split).1
    exact (timed.queued wait (List.mem_of_head? fires.2)).2
  constructor
  · intro idle before taken after wait split fires
    apply (standing before taken after wait split fires).mp
    exact idle taken (by rw [split]; simp) wait fires
  · intro undisturbed taken takenMem wait fires
    rcases List.append_of_mem takenMem with ⟨before, after, split⟩
    apply (standing before taken after wait split fires).mpr
    exact undisturbed before taken after wait split fires

instance (taken : Taken) (wait : ℕ) : Decidable (Fires taken wait) :=
  inferInstanceAs (Decidable (_ ∧ _))

instance (relay : RelaySession) (wait : ℕ) : Decidable (relay.LastKicked wait) :=
  inferInstanceAs (Decidable (_ = _))

/-- A client that never sends anything. -/
theorem fires_idle_iff_silent :
    ∃ log relay, Runs (logged step) anyInput (start .h1 [] 30) log relay ∧
      (∃ taken ∈ log, Fires taken 1) ∧
      ∀ taken ∈ log, ∀ wait, Fires taken wait → taken.source.LastKicked wait := by
  have reached : (run (logged step) (fun _ _ => true) (start .h1 [] 30)
      [.timerExpires, .timerHandler]).any (fun last =>
        decide ((∃ taken ∈ last.2, Fires taken 1) ∧
          ∀ taken ∈ last.2, taken.source.idleTimer.kicks = taken.target.idleTimer.kicks)) =
        true := by
    decide +kernel
  rcases exists_runs_any reached with ⟨log, relay, runs, fired, unkicked⟩
  refine ⟨log, relay, runs, fired, ?_⟩
  apply (fires_idle_iff runs).mpr
  intro before taken after wait split fires earlier earlierMem queued kicks
  exact kicks (unkicked earlier (by rw [split]; exact List.mem_append_left _ earlierMem))

/-- A request that arrives when the wait has expired and its handler has not run yet. -/
def lateRequest : Text.Bytes := Text.ascii "GET / HTTP/1.1\r\nHost: a\r\n\r\n"

theorem fires_on_active_relay :
    ∃ log relay, Runs (logged step) anyInput (start .h1 [] 30) log relay ∧
      relay.done = true ∧ ∃ taken ∈ log, Fires taken 1 ∧ ¬taken.source.LastKicked 1 ∧
        .phase .closed ∈ taken.actions := by
  have reached : (run (logged step) (fun _ _ => true) (start .h1 [] 30)
      [.timerExpires, .complete (.readHead .client []) (.read (.ok lateRequest) 0),
        .timerHandler]).any (fun last =>
        decide (last.1.done = true ∧ ∃ taken ∈ last.2, Fires taken 1 ∧
          ¬taken.source.LastKicked 1 ∧ .phase .closed ∈ taken.actions)) = true := by
    decide +kernel
  exact exists_runs_any reached

end RelaySession

end ReverseProxy
