import ReverseProxy.Proxy.Shutdown

/-!
# Exceptions on the accept path

The handler of `async_accept` asks the accepted socket for its remote endpoint and releases its
descriptor; the handler that it posts assigns the descriptor to a socket of the worker and
builds a `TcpTransportSession`, which asks for the remote endpoint again
(`proxy/reverse_proxy_server.cpp`, `proxy/proxy_core.cpp`, `transport/tcp_transport.cpp`).
All four calls are made in the form that throws, and nothing catches: an exception leaves
`io_context::run()` and the thread's function, which ends the process.

`ReverseProxyServer` is the server while no call fails; here it runs in a process that an
exception can end.
-/

namespace ReverseProxy

open Machine

/-- The descriptor of the accept handler that is next. -/
def IngressTask.accepting : List IngressTask → Option ℕ
  | .accepted fd _ :: _ => some fd
  | _ => none

/-- The descriptor of the worker's hand-off handler that is next. -/
def WorkerTask.adopting : List WorkerTask → Option ℕ
  | .newTcpSocket fd _ :: _ => some fd
  | _ => none

namespace AcceptPath

open ReverseProxyServer (Event)

/-- Which calls succeed in a handler. -/
structure Answers where
  remoteEndpoint : Bool := true
  release : Bool := true
  assign : Bool := true
  deriving DecidableEq, Repr

/-- An event, and how its calls end. -/
structure Input where
  event : Event
  answers : Answers := {}

/-- What is done with descriptors. -/
inductive Effect where
  | server (effect : ReverseProxyServer.Effect)
  | closed (fd : ℕ)
  /-- No object owns the descriptor. -/
  | leaked (fd : ℕ)
  /-- An exception leaves a handler. -/
  | escaped
  deriving DecidableEq, Repr

/-- The server process. -/
structure Process where
  server : ReverseProxyServer
  /-- `std::terminate` has been called. -/
  terminated : Bool := false

/-- Where an exception is thrown. -/
inductive Throw where
  /-- In the accept handler, by `remote_endpoint()` or by `release()`. -/
  | accept (fd : ℕ)
  | assign (w fd : ℕ)
  /-- In the constructor of `TcpTransportStream`. -/
  | construct (w fd : ℕ)
  deriving DecidableEq, Repr

/-- The exception of a handler. -/
def thrown (s : ReverseProxyServer) (answers : Answers) : Event → Option Throw
  | .ingress =>
    if answers.remoteEndpoint && answers.release then none
    else (IngressTask.accepting s.ingress).map .accept
  | .worker w =>
    s.cores[w]?.bind fun core =>
      (WorkerTask.adopting core.queue).bind fun fd =>
        if !answers.assign then some (.assign w fd)
        else if !answers.remoteEndpoint then some (.construct w fd)
        else none
  | _ => none

/-- The worker's next handler is taken from its queue. -/
def dropTask (s : ReverseProxyServer) (w : ℕ) : ReverseProxyServer :=
  { s with cores := s.cores.modify w fun core => { core with queue := core.queue.tail } }

/--
What is left of a handler that throws.  `rr_` has been advanced, and `peer` still owns its
descriptor; `assign` has not taken the descriptor; the stream's socket has.
-/
def Throw.unwind (s : ReverseProxyServer) : Throw → ReverseProxyServer × List Effect
  | .accept fd => ({ s with ingress := s.ingress.tail, rr := (s.rr + 1) % 2 ^ 64 }, [.closed fd])
  | .assign w fd => (dropTask s w, [.leaked fd])
  | .construct w fd => (dropTask s w, [.closed fd])

/-- One event. -/
def step : Step Process Input Effect := fun process input =>
  if process.terminated || process.server.stopped then none
  else
    (thrown process.server input.answers input.event).elim
      ((process.server.step input.event).map fun result =>
        ({ process with server := result.1 }, result.2.map .server))
      fun throw =>
        some ({ server := (throw.unwind process.server).1, terminated := true },
          (throw.unwind process.server).2 ++ [.escaped])

/-- The server has started. -/
def start (rules : List Router.Rule) (idleTimeout : ℕ) (numThreads : ℤ) : Process where
  server := .start rules idleTimeout numThreads

/-- A transition of the process. -/
abbrev Transition := Machine.Transition Process Input Effect

/-- The accept handler runs with a descriptor. -/
def Accepts (t : Transition) (fd : ℕ) : Prop :=
  t.input.event = .ingress ∧ IngressTask.accepting t.source.server.ingress = some fd

/-- The accept handler runs with an error other than `operation_aborted`. -/
def AcceptFails (t : Transition) : Prop :=
  t.input.event = .ingress ∧ t.source.server.ingress.head? = some .acceptFailed

/-- A worker's hand-off handler runs. -/
def Adopts (t : Transition) (fd : ℕ) : Prop :=
  ∃ w core, t.input.event = .worker w ∧ t.source.server.cores[w]? = some core ∧
    WorkerTask.adopting core.queue = some fd

/-- `rr_` modulo the number of workers. -/
def turn (s : ReverseProxyServer) : ℕ := s.rr % s.cores.length

/-- The descriptor is posted to the worker whose turn it is, and to no other. -/
def HandedInTurn (t : Transition) (fd : ℕ) : Prop :=
  ∃ core v6, t.source.server.cores[turn t.source.server]? = some core ∧
    t.target.server.cores = t.source.server.cores.set (turn t.source.server)
      (core.post (.newTcpSocket fd v6))

/-- The effects after which the accept handler does not own the descriptor any more. -/
def Effect.disposes : Effect → Bool
  | .closed _ => true
  | .server (.handed _ _) => true
  | _ => false

/-- What the accept path owes its peers at a step. -/
structure Survives (t : Transition) : Prop where
  rearmed : (∃ fd, Accepts t fd) ∨ AcceptFails t → t.target.server.armed = true
  disposed : ∀ fd, Accepts t fd →
    t.actions.filter Effect.disposes = [.closed fd] ∨
      t.actions.filter Effect.disposes = [.server (.handed (turn t.source.server) fd)] ∧
        HandedInTurn t fd
  /-- No other step hands a descriptor to a worker. -/
  handed : ∀ w fd, .server (.handed w fd) ∈ t.actions → Accepts t fd
  contained : .escaped ∉ t.actions

/-- The calls that a handler makes succeed. -/
structure Answered (t : Transition) : Prop where
  accept : ∀ fd, Accepts t fd → t.input.answers.remoteEndpoint = true ∧
    t.input.answers.release = true
  adopt : ∀ fd, Adopts t fd → t.input.answers.assign = true ∧
    t.input.answers.remoteEndpoint = true

/-! ## What a step does -/

/-- What a step does. -/
inductive Taken (process : Process) (input : Input) : Process → List Effect → Prop where
  | works (next : ReverseProxyServer) (effects : List ReverseProxyServer.Effect)
      (quiet : thrown process.server input.answers input.event = none)
      (stepped : process.server.step input.event = some (next, effects)) :
      Taken process input { process with server := next } (effects.map .server)
  | throws (throw : Throw)
      (isThrown : thrown process.server input.answers input.event = some throw) :
      Taken process input { server := (throw.unwind process.server).1, terminated := true }
        ((throw.unwind process.server).2 ++ [.escaped])

variable {process next : Process} {input : Input} {effects : List Effect}

theorem taken_of_step (stepped : step process input = some (next, effects)) :
    Taken process input next effects := by
  unfold step at stepped
  rw [Option.ite_none_left_eq_some] at stepped
  rcases stepped with ⟨-, stepped⟩
  rcases isThrown : thrown process.server input.answers input.event with _ | throw
  · rw [isThrown] at stepped
    rcases Option.map_eq_some_iff.mp stepped with ⟨result, worked, ⟨⟩⟩
    exact .works result.1 result.2 isThrown worked
  · rw [isThrown] at stepped
    cases stepped
    exact .throws throw isThrown

theorem accepting_eq_some_iff {tasks : List IngressTask} {fd : ℕ} :
    IngressTask.accepting tasks = some fd ↔ ∃ v6 later, tasks = .accepted fd v6 :: later := by
  unfold IngressTask.accepting
  split
  · simp
  · rename_i other
    constructor
    · intro isNone
      cases isNone
    · rintro ⟨v6, later, rfl⟩
      exact absurd rfl (other fd v6 later)

/-- A handler throws exactly if one of its calls fails. -/
theorem thrown_eq_none_iff (t : Transition) :
    thrown t.source.server t.input.answers t.input.event = none ↔ Answered t := by
  constructor
  · intro quiet
    constructor
    · rintro fd ⟨isIngress, isNext⟩
      rw [isIngress, thrown, isNext] at quiet
      simpa using quiet
    · rintro fd ⟨w, core, isWorker, isCore, isNext⟩
      rw [isWorker, thrown, isCore, Option.bind_some, isNext, Option.bind_some] at quiet
      split_ifs at quiet with assigned constructed
      exact ⟨by simpa using assigned, by simpa using constructed⟩
  · intro answered
    rcases isEvent : t.input.event with _ | _ | _ | _ | w | _ | _ | _
    case ingress =>
      rcases isNext : IngressTask.accepting t.source.server.ingress with _ | fd
      · simp [thrown, isNext]
      · rcases answered.accept fd ⟨isEvent, isNext⟩ with ⟨remote, released⟩
        simp [thrown, remote, released]
    case worker =>
      rcases isCore : t.source.server.cores[w]? with _ | core
      · simp [thrown, isCore]
      · rcases isNext : WorkerTask.adopting core.queue with _ | fd
        · simp [thrown, isCore, isNext]
        · rcases answered.adopt fd ⟨w, core, isEvent, isCore, isNext⟩ with ⟨assigned, remote⟩
          simp [thrown, isCore, assigned, remote]
    all_goals rfl

/-! ## The server's own steps -/

section Server

variable {s next : ReverseProxyServer} {effects : List ReverseProxyServer.Effect}

theorem runIngress_of_step (stepped : s.step .ingress = some (next, effects)) :
    ∃ task ingress, s.ingress = task :: ingress ∧
      { s with ingress }.runIngress task = (next, effects) := by
  unfold ReverseProxyServer.step at stepped
  rw [Option.ite_none_left_eq_some] at stepped
  rcases stepped with ⟨-, stepped⟩
  dsimp only at stepped
  split at stepped
  · cases stepped
  · rename_i task ingress isNext
    exact ⟨task, ingress, isNext, Option.some.inj stepped⟩

theorem onAccept_of_step {fd : ℕ} (stepped : s.step .ingress = some (next, effects))
    (isNext : IngressTask.accepting s.ingress = some fd) :
    ∃ v6 ingress, { s with ingress }.onAccept fd v6 = (next, effects) := by
  rcases runIngress_of_step stepped with ⟨task, ingress, isTask, ran⟩
  rcases accepting_eq_some_iff.mp isNext with ⟨v6, later, isFirst⟩
  cases isTask.symm.trans isFirst
  exact ⟨v6, ingress, ran⟩

/-- Only the accept handler hands a descriptor over, and it is the one it has accepted. -/
theorem accepting_of_handed {w fd : ℕ} (stepped : s.step .ingress = some (next, effects))
    (isHanded : .handed w fd ∈ effects) : IngressTask.accepting s.ingress = some fd := by
  rcases runIngress_of_step stepped with ⟨task, ingress, isTask, ran⟩
  apply accepting_eq_some_iff.mpr
  cases task with
  | accepted fd' v6 =>
    cases ran
    have listed : ReverseProxyServer.Effect.handed w fd ∈ [.handed (turn s) fd', .armed] :=
      isHanded
    simp only [List.mem_cons, ReverseProxyServer.Effect.handed.injEq, reduceCtorEq,
      List.not_mem_nil, or_false] at listed
    rw [listed.2]
    exact ⟨v6, ingress, isTask⟩
  | acceptFailed =>
    cases ran
    cases List.mem_singleton.mp isHanded
  | acceptAborted | beginShutdown =>
    cases ran
    cases isHanded

/-- Only the handlers of the ingress thread have effects. -/
theorem eq_ingress_of_effects {event : Event} (stepped : s.step event = some (next, effects))
    {effect : ReverseProxyServer.Effect} (isEffect : effect ∈ effects) : event = .ingress := by
  cases ReverseProxyServer.taken_of_step stepped with
  | ingress task ingress isNext => rfl
  | _ => cases isEffect

theorem length_cores_of_step {event : Event} (stepped : s.step event = some (next, effects)) :
    next.cores.length = s.cores.length := by
  cases ReverseProxyServer.taken_of_step stepped with
  | stops =>
    unfold ReverseProxyServer.stop
    split_ifs
    · rfl
    · rfl
  | completes event task isArmed isTask => rfl
  | ingress task ingress isNext =>
    cases task with
    | accepted fd v6 => exact List.length_modify ..
    | acceptFailed => rfl
    | acceptAborted => rfl
    | beginShutdown =>
      show (List.map _ (ReverseProxyServer.cancelAccept { s with ingress }).cores).length = _
      rw [List.length_map, ReverseProxyServer.cancelAccept]
      split_ifs
      · rfl
      · rfl
  | works | relays => exact List.length_set
  | finalizes isGrace => exact List.length_map _
  | hardStops isBeat => rfl

theorem length_cores_unwind (throw : Throw) : (throw.unwind s).1.cores.length = s.cores.length := by
  cases throw with
  | accept fd => rfl
  | assign w fd => exact List.length_modify ..
  | construct w fd => exact List.length_modify ..

end Server

/-- There is a worker to hand descriptors to. -/
theorem length_cores_of_runs {rules : List Router.Rule} {idleTimeout : ℕ} {numThreads : ℤ}
    {allowed : Process → Input → Prop} {log : List Transition}
    (runs : Runs (logged step) allowed (start rules idleTimeout numThreads)
      log process) : 0 < process.server.cores.length := by
  apply Runs.state_invariant ?_ ?_ runs
  · show 0 < (List.replicate _ _).length
    rw [List.length_replicate]
    omega
  · intro process input next log positive _ stepped
    rcases logged_eq_some_iff.mp stepped with ⟨effects, stepped, -⟩
    cases taken_of_step stepped with
    | works server effects quiet worked =>
      rw [← length_cores_of_step worked] at positive
      exact positive
    | throws throw isThrown =>
      rw [← length_cores_unwind throw] at positive
      exact positive

/-! ## The accept path -/

/-- A step at which no call fails. -/
theorem survives_of_works {next : ReverseProxyServer}
    {effects : List ReverseProxyServer.Effect} (worker : 0 < process.server.cores.length)
    (stepped : process.server.step input.event = some (next, effects)) :
    Survives ⟨process, input, effects.map .server, { process with server := next }⟩ := by
  refine ⟨?_, ?_, ?_, ?_⟩
  · rintro (⟨fd, isIngress, isNext⟩ | ⟨isIngress, isNext⟩)
    · rw [isIngress] at stepped
      rcases onAccept_of_step stepped isNext with ⟨v6, ingress, ⟨⟩⟩
      rfl
    · rw [isIngress] at stepped
      rcases runIngress_of_step stepped with ⟨task, ingress, isTask, ran⟩
      rw [isTask] at isNext
      cases isNext
      cases ran
      rfl
  · rintro fd ⟨isIngress, isNext⟩
    right
    rw [isIngress] at stepped
    rcases onAccept_of_step stepped isNext with ⟨v6, ingress, ⟨⟩⟩
    have inside : turn process.server < process.server.cores.length := Nat.mod_lt _ worker
    refine ⟨rfl, _, v6, List.getElem?_eq_getElem inside, ?_⟩
    exact List.modify_eq_set_get _ inside
  · intro w fd isHanded
    rcases List.mem_map.mp isHanded with ⟨effect, isEffect, ⟨⟩⟩
    have isIngress := eq_ingress_of_effects stepped isEffect
    rw [isIngress] at stepped
    exact ⟨isIngress, accepting_of_handed stepped isEffect⟩
  · simp

theorem survives_iff_of_step {t : Transition} (worker : 0 < t.source.server.cores.length)
    (stepped : step t.source t.input = some (t.target, t.actions)) : Survives t ↔ Answered t := by
  rw [← thrown_eq_none_iff]
  rcases t with ⟨process, input, effects, next⟩
  have taken : Taken process input next effects := taken_of_step stepped
  cases taken with
  | works server effects quiet worked =>
    exact ⟨fun _ => quiet, fun _ => survives_of_works worker worked⟩
  | throws throw isThrown =>
    constructor
    · intro survives
      exact absurd (List.mem_append_right _ List.mem_cons_self) survives.contained
    · intro quiet
      cases quiet.symm.trans isThrown

/--
In every run, the accept path survives its peers exactly if none of the calls that can throw
in its handlers fails.
-/
theorem survives_iff_answered {rules : List Router.Rule} {idleTimeout : ℕ} {numThreads : ℤ}
    {log : List Transition}
    (runs : Runs (logged step) anyInput
      (start rules idleTimeout numThreads) log process) :
    (∀ t ∈ log, Survives t) ↔ ∀ t ∈ log, Answered t := by
  apply forall₂_congr
  intro t isLogged
  rcases List.append_of_mem isLogged with ⟨before, after, split⟩
  rcases runs.before_logged split with ⟨earlier, stepped⟩
  exact survives_iff_of_step (length_cores_of_runs earlier) stepped

/-- A connection is accepted and reaches the first of two workers. -/
theorem survives_iff_answered_handed :
    ∃ (log : List Transition) (process : Process),
      Runs (logged step) anyInput (start [] 60 2) log process ∧
        log.map Machine.Transition.actions =
          [[], [.server (.handed 0 7), .server .armed], []] ∧ ∀ t ∈ log, Survives t := by
  have reached : (run (logged step) (fun _ _ => true) (start [] 60 2)
      [{ event := .connection 7 false }, { event := .ingress }, { event := .worker 0 }]).any
        (fun last => decide (last.2.map Machine.Transition.actions =
            [[], [.server (.handed 0 7), .server .armed], []] ∧
          ∀ t ∈ last.2, thrown t.source.server t.input.answers t.input.event = none)) = true := by
    decide +kernel
  rcases exists_runs_any reached with ⟨log, process, runs, acts, quiet⟩
  refine ⟨log, process, runs, acts, (survives_iff_answered runs).mpr ?_⟩
  intro t isLogged
  exact (thrown_eq_none_iff t).mp (quiet t isLogged)

/--
A peer resets its connection before the accept handler runs: the exception of
`remote_endpoint()` escapes, the acceptor is not armed again, and the process is gone.
-/
theorem reset_peer_terminates :
    ∃ (log : List Transition) (process : Process),
      Runs (logged step) anyInput (start [] 60 2) log process ∧
        log.map Machine.Transition.actions = [[], [.closed 7, .escaped]] ∧
          process.server.armed = false ∧ process.terminated = true ∧
            ¬ ∀ t ∈ log, Survives t := by
  have reached : (run (logged step) (fun _ _ => true) (start [] 60 2)
      [{ event := .connection 7 false },
        { event := .ingress, answers := { remoteEndpoint := false } }]).any
        (fun last => decide (last.2.map Machine.Transition.actions = [[], [.closed 7, .escaped]] ∧
          last.1.server.armed = false ∧ last.1.terminated = true)) = true := by
    decide +kernel
  rcases exists_runs_any reached with ⟨log, process, runs, acts, unarmed, terminated⟩
  refine ⟨log, process, runs, acts, unarmed, terminated, ?_⟩
  intro survives
  have escapes : [.closed 7, .escaped] ∈ log.map Machine.Transition.actions := by
    rw [acts]
    exact List.mem_cons_of_mem _ List.mem_cons_self
  rcases List.mem_map.mp escapes with ⟨t, isLogged, isAction⟩
  apply (survives t isLogged).contained
  rw [isAction]
  exact List.mem_cons_of_mem _ List.mem_cons_self

end AcceptPath

end ReverseProxy
