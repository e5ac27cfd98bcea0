import ReverseProxy.Machine.Run
import ReverseProxy.Relay.Session

/-!
# Stopping the server

`ReverseProxyServer` (`proxy/reverse_proxy_server.cpp`) accepts TCP connections on the ingress
thread and posts them to the workers (`proxy/proxy_core.cpp`).  A shutdown runs on the ingress
thread as well: it cancels the acceptor and posts `graceful_shutdown` to every worker.  All
queues are served in order, and `cancel()` does not reach an accept that has completed and
whose handler is already queued.

`Sound` is what holds whenever a shutdown may still come, `Settled` what holds for good after a
shutdown that no completed accept follows.  The handler of a completed accept does not look at
`stopping_`, so that it takes the server out of `Settled` again.
-/

namespace ReverseProxy

open Machine

/-- Handlers of the ingress thread. -/
inductive IngressTask where
  /-- The handler of `async_accept`, with a connection. -/
  | accepted (fd : ℕ) (v6 : Bool)
  /-- The same with an error other than `operation_aborted`. -/
  | acceptFailed
  | acceptAborted
  | beginShutdown
  deriving DecidableEq, Repr

/-- The handlers of `async_accept`. -/
def IngressTask.isAccept : IngressTask → Bool
  | .beginShutdown => false
  | _ => true

/-- Handlers posted to a worker. -/
inductive WorkerTask where
  | newTcpSocket (fd : ℕ) (v6 : Bool)
  | gracefulShutdown
  | forceCloseQuic
  deriving DecidableEq, Repr

/-- A relay on a TCP client, and whether `graceful_close` has been called on it. -/
structure LiveRelay where
  session : RelaySession
  gracefulClosed : Bool := false

/-- `ProxyCore` with the queue of its `io_context`. -/
structure ProxyCore where
  queue : List WorkerTask := []
  liveRelays : List LiveRelay := []
  /-- The handler of `graceful_shutdown` has run. -/
  shutDown : Bool := false

/-- What `grace_timer_` waits for. -/
inductive GraceTimer where
  | off
  | grace
  /-- The short wait of `finalize`. -/
  | beat
  deriving DecidableEq, Repr

/-- `ReverseProxyServer`. -/
structure ReverseProxyServer where
  rules : List Router.Rule
  idleTimeout : ℕ
  stopping : Bool := false
  /-- An `async_accept` is outstanding. -/
  armed : Bool := false
  ingress : List IngressTask := []
  rr : ℕ := 0
  cores : List ProxyCore
  /-- `begin_shutdown` has run. -/
  begun : Bool := false
  graceTimer : GraceTimer := .off
  /-- No `io_context` runs any more. -/
  stopped : Bool := false

namespace LiveRelay

/-- `RelaySession::graceful_close`. -/
def gracefulClose (relay : LiveRelay) : LiveRelay where
  session := ((relay.session.step .gracefulClose).map Prod.fst).getD relay.session
  gracefulClosed := true

end LiveRelay

namespace ProxyCore

/-- `asio::post`. -/
def post (core : ProxyCore) (task : WorkerTask) : ProxyCore :=
  { core with queue := core.queue ++ [task] }

/-- A TCP session has its stream at once, so that the relay is started here. -/
def runTask (core : ProxyCore) (rules : List Router.Rule) (idleTimeout : ℕ) :
    WorkerTask → ProxyCore
  | .newTcpSocket _ _ =>
    { core with
      liveRelays := core.liveRelays ++ [{ session := .start .h1 rules idleTimeout }] }
  | .gracefulShutdown =>
    { core with
      liveRelays := core.liveRelays.map LiveRelay.gracefulClose, shutDown := true }
  | .forceCloseQuic => core

end ProxyCore

namespace ReverseProxyServer

/-- What can happen to the server. -/
inductive Event where
  | stop
  /-- The kernel has a connection for the outstanding `async_accept`, or an error. -/
  | connection (fd : ℕ) (v6 : Bool)
  | acceptError
  /-- The ingress thread runs its next handler. -/
  | ingress
  /-- A worker runs its next handler. -/
  | worker (w : ℕ)
  | relay (w k : ℕ) (input : RelaySession.Input)
  /-- The last reference to a relay is gone. -/
  | relayGone (w k : ℕ)
  | graceTimerExpires

/-- What is done for a connection. -/
inductive Effect where
  /-- A connection is posted to a worker. -/
  | handed (w fd : ℕ)
  /-- `async_accept` is called. -/
  | armed
  deriving DecidableEq, Repr

/-- The server, and what it has done. -/
abbrev Result := ReverseProxyServer × List Effect

/-- `accept_loop`. -/
def acceptLoop (s : ReverseProxyServer) : Result := ({ s with armed := true }, [.armed])

/-- The handler of `async_accept` with a connection; `rr_` has 64 bits. -/
def onAccept (s : ReverseProxyServer) (fd : ℕ) (v6 : Bool) : Result :=
  let w := s.rr % s.cores.length
  let result := acceptLoop { s with
    rr := (s.rr + 1) % 2 ^ 64
    cores := s.cores.modify w fun core => core.post (.newTcpSocket fd v6) }
  (result.1, .handed w fd :: result.2)

/-- `acceptor_->cancel()`. -/
def cancelAccept (s : ReverseProxyServer) : ReverseProxyServer :=
  if s.armed then { s with armed := false, ingress := s.ingress ++ [.acceptAborted] } else s

/-- Posts to every worker. -/
def postAll (s : ReverseProxyServer) (task : WorkerTask) : ReverseProxyServer :=
  { s with cores := s.cores.map fun core => core.post task }

/-- `begin_shutdown`. -/
def beginShutdown (s : ReverseProxyServer) : ReverseProxyServer :=
  { s.cancelAccept.postAll .gracefulShutdown with begun := true, graceTimer := .grace }

/-- Runs a handler of the ingress. -/
def runIngress (s : ReverseProxyServer) : IngressTask → Result
  | .accepted fd v6 => s.onAccept fd v6
  | .acceptFailed => s.acceptLoop
  | .acceptAborted => (s, [])
  | .beginShutdown => (s.beginShutdown, [])

/-- `stop`. -/
def stop (s : ReverseProxyServer) : ReverseProxyServer :=
  if s.stopping then s
  else { s with stopping := true, ingress := s.ingress ++ [.beginShutdown] }

/-- One worker changes. -/
def setCore (s : ReverseProxyServer) (w : ℕ) (core : ProxyCore) : ReverseProxyServer :=
  { s with cores := s.cores.set w core }

/-- A relay of a worker changes, or is gone. -/
def setRelays (s : ReverseProxyServer) (w : ℕ) (core : ProxyCore) (relays : List LiveRelay) :
    ReverseProxyServer :=
  s.setCore w { core with liveRelays := relays }

/-- Runs the next handler of a worker. -/
def runWorker (s : ReverseProxyServer) (w : ℕ) : Option ReverseProxyServer :=
  s.cores[w]?.bind fun core =>
    match core.queue with
    | [] => none
    | task :: queue => some (s.setCore w ({ core with queue }.runTask s.rules s.idleTimeout task))

/-- A step of a relay. -/
def stepRelay (s : ReverseProxyServer) (w k : ℕ) (input : RelaySession.Input) :
    Option ReverseProxyServer :=
  s.cores[w]?.bind fun core =>
    core.liveRelays[k]?.bind fun relay =>
      (relay.session.step input).map fun result =>
        s.setRelays w core (core.liveRelays.set k { relay with session := result.1 })

/-- The handlers of the grace timer: `finalize`, and `hard_stop` after it. -/
def onGraceTimer (s : ReverseProxyServer) : Option ReverseProxyServer :=
  match s.graceTimer with
  | .off => none
  | .grace => some { s.postAll .forceCloseQuic with graceTimer := .beat }
  | .beat => some { s with graceTimer := .off, stopped := true }

/-- One event. -/
def step : Step ReverseProxyServer Event Effect := fun s event =>
  if s.stopped then none
  else
    match event with
    | .stop => some (s.stop, [])
    | .connection fd v6 =>
      if s.armed then
        some ({ s with armed := false, ingress := s.ingress ++ [.accepted fd v6] }, [])
      else none
    | .acceptError =>
      if s.armed then
        some ({ s with armed := false, ingress := s.ingress ++ [.acceptFailed] }, [])
      else none
    | .ingress =>
      match s.ingress with
      | [] => none
      | task :: ingress => some ({ s with ingress }.runIngress task)
    | .worker w => (s.runWorker w).map fun s => (s, [])
    | .relay w k input => (s.stepRelay w k input).map fun s => (s, [])
    | .relayGone w k =>
      (s.cores[w]?).map fun core => (s.setRelays w core (core.liveRelays.eraseIdx k), [])
    | .graceTimerExpires => s.onGraceTimer.map fun s => (s, [])

/-- After `start()`, with `max(1, num_threads)` workers. -/
def start (rules : List Router.Rule) (idleTimeout : ℕ) (numThreads : ℤ) : ReverseProxyServer where
  rules
  idleTimeout
  cores := List.replicate (max 1 numThreads).toNat {}
  armed := true

/-- Once the shutdown has begun, no connection is handed to a worker and the acceptor is not armed. -/
def StopsAccepting (log : List (Machine.Transition ReverseProxyServer Event Effect)) : Prop :=
  ∀ t ∈ log, t.source.begun = true → t.actions = []

/-- The relays of a worker that has been shut down have been told to close. -/
def RelaysClosed (s : ReverseProxyServer) : Prop :=
  ∀ core ∈ s.cores, core.shutDown = true → ∀ relay ∈ core.liveRelays, relay.gracefulClosed = true

/-! ## What a step does -/

/-- The steps of the workers and of the relays, which leave the ingress alone. -/
inductive CoreStep (s : ReverseProxyServer) (core : ProxyCore) : ProxyCore → Prop where
  | task (task : WorkerTask) (queue : List WorkerTask) (isNext : core.queue = task :: queue) :
      CoreStep s core ({ core with queue }.runTask s.rules s.idleTimeout task)
  | relays (relays : List LiveRelay)
      (same : ∀ relay ∈ relays, ∃ old ∈ core.liveRelays,
        relay.gracefulClosed = old.gracefulClosed) :
      CoreStep s core { core with liveRelays := relays }

/-- What the kernel completes an accept with. -/
def Event.completion? : Event → Option IngressTask
  | .connection fd v6 => some (.accepted fd v6)
  | .acceptError => some .acceptFailed
  | _ => none

/-- A relay runs, or is gone. -/
def Event.isRelay : Event → Bool
  | .relay _ _ _ | .relayGone _ _ => true
  | _ => false

/-- All steps. -/
inductive Taken (s : ReverseProxyServer) : Event → ReverseProxyServer → List Effect → Prop where
  | stops : Taken s .stop s.stop []
  | completes (event : Event) (task : IngressTask) (isArmed : s.armed = true)
      (isTask : event.completion? = some task) :
      Taken s event { s with armed := false, ingress := s.ingress ++ [task] } []
  | ingress (task : IngressTask) (ingress : List IngressTask)
      (isNext : s.ingress = task :: ingress) :
      Taken s .ingress ({ s with ingress }.runIngress task).1 ({ s with ingress }.runIngress task).2
  | works (w : ℕ) (core : ProxyCore) (task : WorkerTask) (queue : List WorkerTask)
      (isCore : s.cores[w]? = some core) (isNext : core.queue = task :: queue) :
      Taken s (.worker w)
        (s.setCore w ({ core with queue }.runTask s.rules s.idleTimeout task)) []
  | relays (event : Event) (w : ℕ) (core : ProxyCore) (relays : List LiveRelay)
      (isCore : s.cores[w]? = some core) (isRelay : event.isRelay = true)
      (same : ∀ relay ∈ relays, ∃ old ∈ core.liveRelays,
        relay.gracefulClosed = old.gracefulClosed) :
      Taken s event (s.setRelays w core relays) []
  | finalizes (isGrace : s.graceTimer = .grace) :
      Taken s .graceTimerExpires { s.postAll .forceCloseQuic with graceTimer := .beat } []
  | hardStops (isBeat : s.graceTimer = .beat) :
      Taken s .graceTimerExpires { s with graceTimer := .off, stopped := true } []

variable {s next : ReverseProxyServer} {event : Event} {effects : List Effect}

theorem isAccept_of_completion {task : IngressTask}
    (isTask : event.completion? = some task) : task.isAccept = true := by
  cases event <;> cases isTask <;> rfl

theorem running_of_step (stepped : step s event = some (next, effects)) : s.stopped = false := by
  unfold step at stepped
  rw [Option.ite_none_left_eq_some, Bool.not_eq_true] at stepped
  exact stepped.1

/-- The steps are the listed ones. -/
theorem taken_of_step (stepped : step s event = some (next, effects)) :
    s.Taken event next effects := by
  unfold step at stepped
  rw [Option.ite_none_left_eq_some] at stepped
  rcases stepped with ⟨-, stepped⟩
  cases event with
  | stop =>
    cases stepped
    exact .stops
  | connection fd v6 =>
    rw [Option.ite_none_right_eq_some] at stepped
    rcases stepped with ⟨isArmed, ⟨⟩⟩
    exact .completes _ _ isArmed rfl
  | acceptError =>
    rw [Option.ite_none_right_eq_some] at stepped
    rcases stepped with ⟨isArmed, ⟨⟩⟩
    exact .completes _ _ isArmed rfl
  | ingress =>
    dsimp only at stepped
    split at stepped
    · cases stepped
    · rename_i task ingress isNext
      rcases Prod.ext_iff.mp (Option.some.inj stepped) with ⟨rfl, rfl⟩
      exact .ingress task ingress isNext
  | worker w =>
    rcases Option.map_eq_some_iff.mp stepped with ⟨_, ran, ⟨⟩⟩
    rcases Option.bind_eq_some_iff.mp ran with ⟨core, isCore, ran⟩
    split at ran
    · cases ran
    · rename_i task queue isNext
      cases ran
      exact .works w core task queue isCore isNext
  | relay w k input =>
    rcases Option.map_eq_some_iff.mp stepped with ⟨_, ran, ⟨⟩⟩
    rcases Option.bind_eq_some_iff.mp ran with ⟨core, isCore, ran⟩
    rcases Option.bind_eq_some_iff.mp ran with ⟨relay, isRelay, ran⟩
    rcases Option.map_eq_some_iff.mp ran with ⟨result, -, rfl⟩
    refine .relays _ w core _ isCore rfl ?_
    intro relay' isRelay'
    rcases List.mem_or_eq_of_mem_set isRelay' with old | rfl
    · exact ⟨relay', old, rfl⟩
    · exact ⟨relay, List.mem_of_getElem? isRelay, rfl⟩
  | relayGone w k =>
    rcases Option.map_eq_some_iff.mp stepped with ⟨core, isCore, ⟨⟩⟩
    refine .relays _ w core _ isCore rfl ?_
    intro relay isRelay
    exact ⟨relay, List.mem_of_mem_eraseIdx isRelay, rfl⟩
  | graceTimerExpires =>
    rcases Option.map_eq_some_iff.mp stepped with ⟨_, expired, ⟨⟩⟩
    unfold onGraceTimer at expired
    split at expired
    · cases expired
    · rename_i isGrace
      cases expired
      exact .finalizes isGrace
    · rename_i isBeat
      cases expired
      exact .hardStops isBeat

/-! ## Before the shutdown -/

/-- At most one accept and one shutdown are under way, and no worker knows of the shutdown yet. -/
structure Sound (s : ReverseProxyServer) : Prop where
  oneAccept : s.armed.toNat + s.ingress.countP IngressTask.isAccept ≤ 1
  oneShutdown : s.begun.toNat + s.ingress.countP (fun task => !task.isAccept) ≤ s.stopping.toNat
  unposted : s.begun = false → ∀ core ∈ s.cores, core.shutDown = false ∧
    .gracefulShutdown ∉ core.queue

theorem sound_start (rules : List Router.Rule) (idleTimeout : ℕ) (numThreads : ℤ) :
    Sound (start rules idleTimeout numThreads) := by
  refine ⟨by simp [start], by simp [start], ?_⟩
  intro _ core isCore
  rw [List.eq_of_mem_replicate isCore]
  simp

theorem Sound.stop (sound : Sound s) : Sound s.stop := by
  rw [ReverseProxyServer.stop]
  split_ifs with isStopping
  · exact sound
  · rcases sound with ⟨oneAccept, oneShutdown, unposted⟩
    rw [Bool.not_eq_true] at isStopping
    rw [isStopping] at oneShutdown
    refine ⟨?_, ?_, unposted⟩
    · rw [List.countP_append, List.countP_singleton]
      exact oneAccept
    · rw [List.countP_append, List.countP_singleton]
      exact Nat.add_le_add_right oneShutdown 1

theorem Sound.setCore (sound : Sound s) {w : ℕ} {core core' : ProxyCore}
    (isCore : s.cores[w]? = some core) (stepped : CoreStep s core core') :
    Sound (s.setCore w core') := by
  refine ⟨sound.oneAccept, sound.oneShutdown, ?_⟩
  intro notBegun other isOther
  rcases List.mem_or_eq_of_mem_set isOther with old | rfl
  · exact sound.unposted notBegun other old
  · rcases sound.unposted notBegun core (List.mem_of_getElem? isCore) with ⟨running, unposted⟩
    cases stepped with
    | relays relays same => exact ⟨running, unposted⟩
    | task task queue isNext =>
      rw [isNext, List.mem_cons, not_or] at unposted
      cases task with
      | newTcpSocket fd v6 => exact ⟨running, unposted.2⟩
      | gracefulShutdown => exact absurd rfl unposted.1
      | forceCloseQuic => exact ⟨running, unposted.2⟩

theorem Sound.unposted_post (sound : Sound s) {task : WorkerTask}
    (isOther : task ≠ .gracefulShutdown) (notBegun : s.begun = false) {core : ProxyCore}
    (isCore : core ∈ s.cores) :
    (core.post task).shutDown = false ∧ .gracefulShutdown ∉ (core.post task).queue := by
  rcases sound.unposted notBegun core isCore with ⟨running, unposted⟩
  refine ⟨running, ?_⟩
  rw [ProxyCore.post, List.mem_append, List.mem_singleton, not_or]
  exact ⟨unposted, isOther.symm⟩

theorem Sound.acceptLoop (sound : Sound s)
    (idle : s.armed.toNat + s.ingress.countP IngressTask.isAccept = 0) : Sound s.acceptLoop.1 := by
  refine ⟨?_, sound.oneShutdown, sound.unposted⟩
  change 1 + s.ingress.countP IngressTask.isAccept ≤ 1
  omega

theorem Sound.onAccept (sound : Sound s)
    (idle : s.armed.toNat + s.ingress.countP IngressTask.isAccept = 0) (fd : ℕ) (v6 : Bool) :
    Sound (s.onAccept fd v6).1 := by
  refine Sound.acceptLoop ⟨sound.oneAccept, sound.oneShutdown, ?_⟩ idle
  intro notBegun core isCore
  rcases List.mem_iff_getElem?.mp isCore with ⟨w, isCore⟩
  rw [List.getElem?_modify, Option.map_eq_map, Option.map_eq_some_iff] at isCore
  rcases isCore with ⟨old, isOld, rfl⟩
  have isOld := List.mem_of_getElem? isOld
  split_ifs
  · exact sound.unposted_post WorkerTask.noConfusion notBegun isOld
  · exact sound.unposted notBegun old isOld

theorem Sound.beginShutdown (sound : Sound s)
    (queued : s.begun.toNat + s.ingress.countP (fun task => !task.isAccept) < s.stopping.toNat) :
    Sound s.beginShutdown := by
  refine ⟨?_, ?_, by intro begun; cases begun⟩
  · have oneAccept := sound.oneAccept
    simp only [ReverseProxyServer.beginShutdown, postAll, cancelAccept]
    split_ifs with isArmed
    · rw [isArmed, Bool.toNat_true] at oneAccept
      rw [List.countP_append, List.countP_singleton, ← Nat.add_assoc]
      change 0 + _ + 1 ≤ 1
      omega
    · exact oneAccept
  · have stayed : s.cancelAccept.ingress.countP (fun task => !task.isAccept) =
        s.ingress.countP (fun task => !task.isAccept) := by
      rw [cancelAccept]
      split_ifs
      · exact (List.countP_append ..).trans (by rfl)
      · rfl
    have isStopping : s.cancelAccept.stopping = s.stopping := by
      rw [cancelAccept]
      split_ifs <;> rfl
    change 1 + s.cancelAccept.ingress.countP (fun task => !task.isAccept) ≤
      s.cancelAccept.stopping.toNat
    rw [stayed, isStopping]
    omega

/-- An accept that completed leaves room for the next one, and a shutdown runs once. -/
theorem Sound.runIngress (sound : Sound s) {task : IngressTask} {ingress : List IngressTask}
    (isNext : s.ingress = task :: ingress) : Sound ({ s with ingress }.runIngress task).1 := by
  have oneAccept := sound.oneAccept
  have oneShutdown := sound.oneShutdown
  rw [isNext, List.countP_cons] at oneAccept oneShutdown
  have dequeued : Sound { s with ingress } := by
    refine ⟨?_, ?_, sound.unposted⟩
    · exact le_trans (Nat.add_le_add_left (Nat.le_add_right _ _) _) oneAccept
    · exact le_trans (Nat.add_le_add_left (Nat.le_add_right _ _) _) oneShutdown
  cases task with
  | accepted fd v6 =>
    apply dequeued.onAccept
    exact Nat.le_zero.mp (Nat.le_of_succ_le_succ oneAccept)
  | acceptFailed =>
    apply dequeued.acceptLoop
    exact Nat.le_zero.mp (Nat.le_of_succ_le_succ oneAccept)
  | acceptAborted => exact dequeued
  | beginShutdown => exact dequeued.beginShutdown oneShutdown

theorem Sound.step (sound : Sound s) (taken : s.Taken event next effects) : Sound next := by
  cases taken with
  | stops => exact sound.stop
  | completes _ task isArmed isTask =>
    have isAccept := isAccept_of_completion isTask
    rcases sound with ⟨oneAccept, oneShutdown, unposted⟩
    rw [isArmed, Nat.add_comm] at oneAccept
    refine ⟨?_, ?_, unposted⟩
    · rw [List.countP_append, List.countP_singleton, if_pos isAccept]
      exact (Nat.zero_add _).trans_le oneAccept
    · rw [List.countP_append, List.countP_singleton, isAccept]
      exact oneShutdown
  | ingress task ingress isNext => exact sound.runIngress isNext
  | works w core task queue isCore isNext => exact sound.setCore isCore (.task task queue isNext)
  | relays _ w core relays isCore isRelay same => exact sound.setCore isCore (.relays relays same)
  | finalizes isGrace =>
    refine ⟨sound.oneAccept, sound.oneShutdown, ?_⟩
    intro notBegun core isCore
    rcases List.mem_map.mp isCore with ⟨old, isOld, rfl⟩
    exact sound.unposted_post WorkerTask.noConfusion notBegun isOld
  | hardStops isBeat => exact ⟨sound.oneAccept, sound.oneShutdown, sound.unposted⟩

theorem sound_of_runs {rules : List Router.Rule} {idleTimeout : ℕ} {numThreads : ℤ}
    {trace : List Effect} (runs : Runs step anyInput (start rules idleTimeout numThreads) trace s) :
    Sound s := by
  apply Runs.state_invariant (sound_start rules idleTimeout numThreads) ?_ runs
  intro state input next actions sound _ stepped
  exact sound.step (taken_of_step stepped)

/-! ## After the shutdown -/

/-- No connection waits for a worker. -/
def NoSocket (queue : List WorkerTask) : Prop := ∀ fd v6, .newTcpSocket fd v6 ∉ queue

/-- No connection comes after the `graceful_shutdown` of a worker. -/
inductive WindingDown (core : ProxyCore) : Prop where
  | waits (before after : List WorkerTask) (running : core.shutDown = false)
      (isQueue : core.queue = before ++ .gracefulShutdown :: after)
      (first : .gracefulShutdown ∉ before) (last : NoSocket after) : WindingDown core
  | closed (isDown : core.shutDown = true) (none : NoSocket core.queue)
      (relays : ∀ relay ∈ core.liveRelays, relay.gracefulClosed = true) : WindingDown core

theorem NoSocket.forceCloseQuic {queue : List WorkerTask} (none : NoSocket queue) :
    NoSocket (queue ++ [.forceCloseQuic]) := by
  intro fd v6 isTask
  rcases List.mem_append.mp isTask with isTask | isTask
  · exact none fd v6 isTask
  · simp at isTask

theorem WindingDown.forceCloseQuic {core : ProxyCore} (winding : WindingDown core) :
    WindingDown (core.post .forceCloseQuic) := by
  cases winding with
  | waits before after running isQueue first last =>
    refine .waits before (after ++ [.forceCloseQuic]) running ?_ first last.forceCloseQuic
    simp [ProxyCore.post, isQueue]
  | closed isDown none relays => exact .closed isDown none.forceCloseQuic relays

theorem gracefulClosed_of_mem_map {relays : List LiveRelay} {relay : LiveRelay}
    (isRelay : relay ∈ relays.map LiveRelay.gracefulClose) : relay.gracefulClosed = true := by
  rcases List.mem_map.mp isRelay with ⟨old, -, rfl⟩
  rfl

theorem WindingDown.step {core core' : ProxyCore} (winding : WindingDown core)
    (stepped : CoreStep s core core') : WindingDown core' := by
  cases stepped with
  | relays relays same =>
    cases winding with
    | waits before after running isQueue first last =>
      exact .waits before after running isQueue first last
    | closed isDown none closed =>
      refine .closed isDown none ?_
      intro relay isRelay
      rcases same relay isRelay with ⟨old, isOld, isSame⟩
      exact isSame.trans (closed old isOld)
  | task task queue isNext =>
    cases winding with
    | closed isDown none relays =>
      have noneLeft : NoSocket queue := by
        intro fd v6 isTask
        exact none fd v6 (isNext ▸ List.mem_cons_of_mem _ isTask)
      cases task with
      | newTcpSocket fd v6 => exact absurd (isNext ▸ List.mem_cons_self) (none fd v6)
      | gracefulShutdown =>
        refine .closed rfl noneLeft ?_
        intro relay isRelay
        exact gracefulClosed_of_mem_map isRelay
      | forceCloseQuic => exact .closed isDown noneLeft relays
    | waits before after running isQueue first last =>
      rw [isQueue] at isNext
      cases before with
      | nil =>
        -- the handler of `graceful_shutdown` runs now
        rcases List.cons.inj isNext with ⟨rfl, rfl⟩
        refine .closed rfl last ?_
        intro relay isRelay
        exact gracefulClosed_of_mem_map isRelay
      | cons task before =>
        rcases List.cons.inj isNext with ⟨rfl, rfl⟩
        rw [List.mem_cons, not_or] at first
        cases task with
        | newTcpSocket fd v6 => exact .waits before after running rfl first.2 last
        | gracefulShutdown => exact absurd rfl first.1
        | forceCloseQuic => exact .waits before after running rfl first.2 last

theorem winding_setCore (winding : ∀ core ∈ s.cores, WindingDown core) {w : ℕ}
    {core core' : ProxyCore} (isCore : s.cores[w]? = some core) (stepped : CoreStep s core core') :
    ∀ core ∈ (s.setCore w core').cores, WindingDown core := by
  intro other isOther
  rcases List.mem_or_eq_of_mem_set isOther with old | rfl
  · exact winding other old
  · exact (winding core (List.mem_of_getElem? isCore)).step stepped

/-- What the shutdown leaves if no accept has completed before it. -/
structure Settled (s : ReverseProxyServer) : Prop where
  begun : s.begun = true
  stopping : s.stopping = true
  unarmed : s.armed = false
  aborted : ∀ task ∈ s.ingress, task = .acceptAborted
  winding : ∀ core ∈ s.cores, WindingDown core

theorem Settled.relaysClosed (settled : Settled s) : RelaysClosed s := by
  intro core isCore isDown
  cases settled.winding core isCore with
  | waits before after running => exact absurd isDown (by simp [running])
  | closed _ _ relays => exact relays

theorem Settled.step (settled : Settled s) (taken : s.Taken event next effects) :
    effects = [] ∧ Settled next := by
  rcases settled with ⟨begun, stopping, unarmed, aborted, winding⟩
  cases taken with
  | stops =>
    rw [ReverseProxyServer.stop, if_pos stopping]
    exact ⟨rfl, begun, stopping, unarmed, aborted, winding⟩
  | completes _ task isArmed isTask => exact absurd isArmed (by simp [unarmed])
  | ingress task ingress isNext =>
    rw [isNext, List.forall_mem_cons] at aborted
    rcases aborted with ⟨rfl, aborted⟩
    exact ⟨rfl, begun, stopping, unarmed, aborted, winding⟩
  | works w core task queue isCore isNext =>
    exact ⟨rfl, begun, stopping, unarmed, aborted,
      winding_setCore winding isCore (.task task queue isNext)⟩
  | relays _ w core relays isCore isRelay same =>
    exact ⟨rfl, begun, stopping, unarmed, aborted,
      winding_setCore winding isCore (.relays relays same)⟩
  | finalizes isGrace =>
    refine ⟨rfl, begun, stopping, unarmed, aborted, ?_⟩
    intro core isCore
    rcases List.mem_map.mp isCore with ⟨old, isOld, rfl⟩
    exact (winding old isOld).forceCloseQuic
  | hardStops isBeat => exact ⟨rfl, begun, stopping, unarmed, aborted, winding⟩

theorem Settled.stops {log : List (Machine.Transition ReverseProxyServer Event Effect)}
    (settled : Settled s) (runs : Runs (logged ReverseProxyServer.step) anyInput s log next) :
    StopsAccepting log ∧ RelaysClosed next := by
  have kept : StopsAccepting log ∧ Settled next := by
    apply Runs.forall_mem settled ?_ runs
    intro state input next actions settled _ stepped
    rcases logged_eq_some_iff.mp stepped with ⟨effects, taken, rfl⟩
    rcases settled.step (taken_of_step taken) with ⟨rfl, settled⟩
    refine ⟨?_, settled⟩
    intro t isTransition _
    rw [List.mem_singleton.mp isTransition]
  exact ⟨kept.1, kept.2.relaysClosed⟩

/-! ## The shutdown -/

section BeginShutdown

variable {rest : List IngressTask}

/-- What is queued behind the shutdown are handlers of `async_accept`. -/
theorem Sound.beforeShutdown (sound : Sound s) (isNext : s.ingress = .beginShutdown :: rest) :
    s.begun = false ∧ s.stopping = true ∧ ∀ task ∈ rest, task.isAccept = true := by
  have oneShutdown := sound.oneShutdown
  rw [isNext, List.countP_cons_of_pos rfl] at oneShutdown
  have atMost : s.stopping.toNat ≤ 1 := Bool.toNat_le s.stopping
  refine ⟨?_, ?_, ?_⟩
  · apply Bool.toNat_eq_zero.mp
    omega
  · apply Bool.toNat_eq_one.mp
    omega
  · intro task isTask
    have noneLeft : rest.countP (fun task => !task.isAccept) = 0 := by omega
    simpa using List.countP_eq_zero.mp noneLeft task isTask

/-- A completed accept behind the shutdown is alone there, and none is outstanding. -/
theorem Sound.alone (sound : Sound s) (isNext : s.ingress = .beginShutdown :: rest)
    {task : IngressTask} (isTask : task ∈ rest) : s.armed = false ∧ rest = [task] := by
  rcases sound.beforeShutdown isNext with ⟨-, -, accepts⟩
  have oneAccept := sound.oneAccept
  rw [isNext, List.countP_cons_of_neg (by decide), List.countP_eq_length.mpr accepts] at oneAccept
  have some : 0 < rest.length := List.length_pos_of_mem isTask
  constructor
  · apply Bool.toNat_eq_zero.mp
    omega
  · rcases List.length_eq_one_iff.mp (by omega : rest.length = 1) with ⟨only, rfl⟩
    rw [List.mem_singleton.mp isTask]

theorem Sound.settled (sound : Sound s) (isNext : s.ingress = .beginShutdown :: rest)
    (none : ∀ fd v6, .accepted fd v6 ∉ rest) (noError : .acceptFailed ∉ rest) :
    Settled { s with ingress := rest }.beginShutdown := by
  rcases sound.beforeShutdown isNext with ⟨notBegun, stopping, accepts⟩
  have aborted : ∀ task ∈ rest, task = .acceptAborted := by
    intro task isTask
    cases task with
    | accepted fd v6 => exact absurd isTask (none fd v6)
    | acceptFailed => exact absurd isTask noError
    | acceptAborted => rfl
    | beginShutdown => cases accepts _ isTask
  have winding : ∀ core ∈ s.cores, WindingDown (core.post .gracefulShutdown) := by
    intro core isCore
    rcases sound.unposted notBegun core isCore with ⟨running, unposted⟩
    exact .waits core.queue [] running rfl unposted (by simp [NoSocket])
  rw [ReverseProxyServer.beginShutdown, cancelAccept]
  split_ifs with isArmed
  · refine ⟨rfl, stopping, rfl, ?_, List.forall_mem_map.mpr winding⟩
    exact List.forall_mem_append.mpr ⟨aborted, List.forall_mem_singleton.mpr rfl⟩
  · exact ⟨rfl, stopping, Bool.eq_false_iff.mpr isArmed, aborted, List.forall_mem_map.mpr winding⟩

theorem step_ingress {task : IngressTask} (isNext : s.ingress = task :: rest) :
    step s .ingress =
      if s.stopped then none else some ({ s with ingress := rest }.runIngress task) := by
  simp only [step, isNext]

/-- A completed accept that was queued before the shutdown arms the acceptor after it. -/
theorem Sound.restarts (sound : Sound s) (running : s.stopped = false)
    (isNext : s.ingress = .beginShutdown :: rest) {task : IngressTask} (isTask : task ∈ rest)
    (arms : ∀ s : ReverseProxyServer, (s.runIngress task).2 ≠ []) :
    ∃ log last, Runs (logged ReverseProxyServer.step) anyInput
      { s with ingress := rest }.beginShutdown log last ∧ ¬ StopsAccepting log := by
  rcases sound.alone isNext isTask with ⟨unarmed, rfl⟩
  have queued : { s with ingress := [task] }.beginShutdown.ingress = [task] := by
    simp [ReverseProxyServer.beginShutdown, cancelAccept, postAll, unarmed]
  have stillRunning : { s with ingress := [task] }.beginShutdown.stopped = false := by
    simp [ReverseProxyServer.beginShutdown, cancelAccept, postAll, unarmed, running]
  have taken := step_ingress queued
  rw [stillRunning, if_neg Bool.false_ne_true] at taken
  refine ⟨_, _, .cons trivial (logged_eq_some_iff.mpr ⟨_, taken, rfl⟩) .refl, ?_⟩
  intro stops
  exact arms _ (stops _ List.mem_cons_self rfl)

variable {rules : List Router.Rule} {idleTimeout : ℕ} {numThreads : ℤ} {trace : List Effect}

/-- A shutdown stops the server for good iff no accept, or error of one, has completed and is
queued behind it. -/
theorem stopping_iff
    (runs : Runs step anyInput (start rules idleTimeout numThreads) trace s)
    (isNext : s.ingress = .beginShutdown :: rest) (taken : step s .ingress = some (next, effects)) :
    (∀ log last, Runs (logged step) anyInput next log last →
        StopsAccepting log ∧ RelaysClosed last) ↔
      (∀ fd v6, .accepted fd v6 ∉ rest) ∧ .acceptFailed ∉ rest := by
  have sound := sound_of_runs runs
  rw [step_ingress isNext, Option.ite_none_left_eq_some, Bool.not_eq_true] at taken
  rcases taken with ⟨running, ⟨⟩⟩
  constructor
  · intro stops
    have none : ∀ task ∈ rest, ¬ ∀ s : ReverseProxyServer, (s.runIngress task).2 ≠ [] := by
      intro task isTask arms
      rcases sound.restarts running isNext isTask arms with ⟨log, last, later, continues⟩
      exact continues (stops log last later).1
    constructor
    · intro fd v6 isTask
      exact none _ isTask fun s => List.cons_ne_nil _ _
    · intro isTask
      exact none _ isTask fun s => List.cons_ne_nil _ _
  · rintro ⟨none, noError⟩ log last later
    exact (sound.settled isNext none noError).stops later

/-- A connection that was handed over before the shutdown. -/
theorem stopping_handedBefore :
    ∃ trace s next, Runs step anyInput (start [] 30 1) trace s ∧
      .handed 0 7 ∈ trace ∧ step s .ingress = some (next, []) ∧
      ∀ log last, Runs (logged step) anyInput next log last →
        StopsAccepting log ∧ RelaysClosed last := by
  have reached : (run step (fun _ _ => true) (start [] 30 1)
      [.connection 7 false, .ingress, .stop]).any (fun last => decide (
        .handed 0 7 ∈ last.2 ∧ last.1.ingress = [.beginShutdown] ∧
          last.1.stopped = false)) = true := by
    decide +kernel
  rcases exists_runs_any reached with ⟨trace, s, runs, isHanded, isNext, running⟩
  have taken := step_ingress isNext
  rw [running, if_neg Bool.false_ne_true] at taken
  exact ⟨trace, s, _, runs, isHanded, taken, (stopping_iff runs isNext taken).mpr (by simp)⟩

/-- A connection arrives while the shutdown is queued: it is handed to a worker after the shutdown,
the acceptor is armed again, and its relay is never told to close. -/
theorem handed_after_shutdown :
    ∃ log last, Runs (logged step) anyInput (start [] 30 1) log last ∧
      (∃ t ∈ log, t.source.begun = true ∧ t.actions = [.handed 0 7, .armed]) ∧
      ¬ StopsAccepting log ∧ ¬ RelaysClosed last := by
  have reached : (run (logged step) (fun _ _ => true) (start [] 30 1)
      [.stop, .connection 7 false, .ingress, .worker 0, .ingress, .worker 0]).any
        (fun last => decide (
          (∃ t ∈ last.2, t.source.begun = true ∧ t.actions = [.handed 0 7, .armed]) ∧
          ∃ core ∈ last.1.cores, core.shutDown = true ∧
            ∃ relay ∈ core.liveRelays, relay.gracefulClosed = false)) = true := by
    decide +kernel
  rcases exists_runs_any reached with
    ⟨log, last, runs, ⟨t, isTransition, begun, acts⟩, core, isCore, isDown, relay, isRelay, isOpen⟩
  refine ⟨log, last, runs, ⟨t, isTransition, begun, acts⟩, ?_, ?_⟩
  · intro stops
    cases acts.symm.trans (stops t isTransition begun)
  · intro closed
    cases isOpen.symm.trans (closed core isCore isDown relay isRelay)

end BeginShutdown

end ReverseProxyServer

end ReverseProxy
