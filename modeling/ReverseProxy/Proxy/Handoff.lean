import ReverseProxy.Machine.Progress
import ReverseProxy.Proxy.AcceptPath

/-!
# From the acceptor to the workers

A connection goes from the kernel through the queue of the ingress thread and the queue of
one worker to the relay that serves it.  The two parts of the shutdown go through the same
queues.  The lemmas about `Taken` say what each step of the server takes out of them and puts
into them, and the accounts below are kept by it.

The shutdown itself rests on the ingress thread alone: nothing that the workers or the relays
do delays it.

Both results are about the runs of `AcceptPath` in which no handler throws.  An exception ends
the process, and then a connection may be lost and the shutdown does not come to its end.
-/

namespace ReverseProxy

open Machine

/-- The connection that a handler is given. -/
def IngressTask.socket? : IngressTask → Option ℕ
  | .accepted fd _ => some fd
  | _ => none

namespace WorkerTask

/-- The connection that a handler is given. -/
def socket? : WorkerTask → Option ℕ
  | .newTcpSocket fd _ => some fd
  | _ => none

/-- The tasks of the shutdown. -/
def isShutdown : WorkerTask → Bool
  | .newTcpSocket _ _ => false
  | _ => true

end WorkerTask

@[simp] theorem ProxyCore.queue_runTask (core : ProxyCore) (rules : List Router.Rule)
    (idleTimeout : ℕ) (task : WorkerTask) :
    (core.runTask rules idleTimeout task).queue = core.queue := by
  cases task <;> rfl

namespace ReverseProxyServer

/-- The connection that the kernel completes an accept with. -/
def Event.socket? (event : Event) : Option ℕ := event.completion?.bind IngressTask.socket?

/-- The worker runs its next handler. -/
def Event.isWorker (w : ℕ) : Event → Bool
  | .worker w' => w' = w
  | _ => false

/-- The worker and the connection of a hand-off. -/
def Effect.handoff? : Effect → Option (ℕ × ℕ)
  | .handed w fd => some (w, fd)
  | .armed => none

/-- The task that a worker runs in a step. -/
def ran (s : ReverseProxyServer) (event : Event) (w : ℕ) : List WorkerTask :=
  if event.isWorker w then ((s.cores[w]?).bind fun core => core.queue.head?).toList else []

/-- What a handler of the ingress thread posts to a worker. -/
def ingressPosts (s : ReverseProxyServer) (w : ℕ) : IngressTask → List WorkerTask
  | .accepted fd v6 => if s.rr % s.cores.length = w then [.newTcpSocket fd v6] else []
  | .beginShutdown => [.gracefulShutdown]
  | _ => []

/-- What a step posts to a worker. -/
def posts (s : ReverseProxyServer) (w : ℕ) : Event → List WorkerTask
  | .ingress => (s.ingress.head?).elim [] (s.ingressPosts w)
  | .graceTimerExpires => if s.graceTimer = .grace then [.forceCloseQuic] else []
  | _ => []

/-- The tasks of the shutdown that have been posted to every worker. -/
def posted (s : ReverseProxyServer) : List WorkerTask :=
  (if s.begun then [.gracefulShutdown] else []) ++
    if s.graceTimer = .beat ∨ s.stopped then [.forceCloseQuic] else []

/-! ## What a step moves -/

section Steps

variable {s next : ReverseProxyServer} {event : Event} {effects : List Effect}

theorem stop_eq (s : ReverseProxyServer) :
    s.stop =
      { s with
        stopping := true
        ingress := s.ingress ++ if s.stopping then [] else [.beginShutdown] } := by
  unfold stop
  split_ifs with isStopping
  · rw [List.append_nil, ← isStopping]
  · rfl

theorem beginShutdown_eq (s : ReverseProxyServer) :
    s.beginShutdown =
      { s with
        armed := false
        ingress := s.ingress ++ if s.armed then [.acceptAborted] else []
        cores := s.cores.map fun core => core.post .gracefulShutdown
        begun := true
        graceTimer := .grace } := by
  unfold beginShutdown cancelAccept postAll
  split_ifs with isArmed
  · rfl
  · rw [List.append_nil, ← Bool.eq_false_iff.mpr isArmed]

theorem ran_of_isWorker_eq_false {w : ℕ} (idle : event.isWorker w = false) :
    s.ran event w = [] := by
  rw [ran, idle, if_neg Bool.false_ne_true]

/-- A core after a task has been posted to all of them. -/
theorem exists_core_of_post {w : ℕ} {core : ProxyCore} {task : WorkerTask}
    (isCore : (s.cores.map fun core => core.post task)[w]? = some core) :
    ∃ old, s.cores[w]? = some old ∧ core.queue = old.queue ++ [task] := by
  rw [List.getElem?_map, Option.map_eq_some_iff] at isCore
  rcases isCore with ⟨old, isOld, rfl⟩
  exact ⟨old, isOld, rfl⟩

theorem posts_ingress {w : ℕ} {task : IngressTask} {ingress : List IngressTask}
    (isNext : s.ingress = task :: ingress) : s.posts w .ingress = s.ingressPosts w task := by
  rw [posts, isNext]
  rfl

/-- An event that does neither run the ingress thread nor the grace timer posts nothing. -/
theorem posts_of_completion {w : ℕ} {task : IngressTask} (isTask : event.completion? = some task) :
    s.posts w event = [] := by
  cases event <;> first | rfl | cases isTask

theorem posts_of_isRelay {w : ℕ} (isRelay : event.isRelay = true) : s.posts w event = [] := by
  cases event <;> first | rfl | cases isRelay

/-- What a worker runs leaves its queue at the front, and what is posted to it joins the end. -/
theorem Taken.queues (taken : s.Taken event next effects) {w : ℕ} {core' : ProxyCore}
    (isCore' : next.cores[w]? = some core') :
    ∃ core, s.cores[w]? = some core ∧
      s.ran event w ++ core'.queue = core.queue ++ s.posts w event := by
  cases taken with
  | stops =>
    rw [stop_eq] at isCore'
    exact ⟨core', isCore', (List.append_nil _).symm⟩
  | completes event task isArmed isTask =>
    refine ⟨core', isCore', ?_⟩
    rw [posts_of_completion isTask,
      ran_of_isWorker_eq_false (by cases event <;> first | rfl | cases isTask)]
    exact (List.append_nil _).symm
  | ingress task ingress isNext =>
    rw [posts_ingress isNext]
    cases task with
    | accepted fd v6 =>
      change (s.cores.modify _ _)[w]? = some core' at isCore'
      rw [List.getElem?_modify, Option.map_eq_map, Option.map_eq_some_iff] at isCore'
      rcases isCore' with ⟨core, isCore, rfl⟩
      refine ⟨core, isCore, ?_⟩
      rw [ingressPosts]
      split_ifs
      · rfl
      · exact (List.append_nil _).symm
    | acceptFailed | acceptAborted => exact ⟨core', isCore', (List.append_nil _).symm⟩
    | beginShutdown =>
      rw [runIngress, beginShutdown_eq] at isCore'
      exact exists_core_of_post isCore'
  | finalizes isGrace =>
    rw [posts, if_pos isGrace]
    exact exists_core_of_post isCore'
  | hardStops isBeat =>
    rw [posts, if_neg (by simp [isBeat])]
    exact ⟨core', isCore', (List.append_nil _).symm⟩
  | works w' core task queue isCore isNext =>
    change (s.cores.set w' _)[w]? = some core' at isCore'
    rw [List.getElem?_set] at isCore'
    split_ifs at isCore' with same inside
    · subst same
      cases isCore'
      refine ⟨core, isCore, ?_⟩
      rw [ran, if_pos (by simp [Event.isWorker]), isCore, ProxyCore.queue_runTask,
        Option.bind_some, isNext]
      exact (List.append_nil _).symm
    · refine ⟨core', isCore', ?_⟩
      rw [ran_of_isWorker_eq_false (by simpa [Event.isWorker] using same)]
      exact (List.append_nil _).symm
  | relays event w' core relays isCore isRelay same =>
    change (s.cores.set w' _)[w]? = some core' at isCore'
    rw [posts_of_isRelay isRelay,
      ran_of_isWorker_eq_false (by cases event <;> first | rfl | cases isRelay)]
    rw [List.getElem?_set] at isCore'
    split_ifs at isCore' with same inside
    · subst same
      cases isCore'
      exact ⟨core, isCore, (List.append_nil _).symm⟩
    · exact ⟨core', isCore', (List.append_nil _).symm⟩

/-- What is handed to a worker is posted to it. -/
theorem Taken.handoffs_eq (taken : s.Taken event next effects) (w : ℕ) :
    (s.posts w event).filterMap WorkerTask.socket? =
      (effects.filterMap Effect.handoff?).filterMap
        fun handoff => if handoff.1 = w then some handoff.2 else none := by
  cases taken with
  | ingress task ingress isNext =>
    rw [posts_ingress isNext]
    cases task with
    | accepted fd v6 =>
      show _ = (List.filterMap Effect.handoff? [.handed (s.rr % s.cores.length) fd, .armed]).filterMap _
      by_cases same : s.rr % s.cores.length = w <;>
        simp [ingressPosts, same, Effect.handoff?, WorkerTask.socket?]
    | acceptFailed | acceptAborted | beginShutdown => rfl
  | completes event task isArmed isTask => rw [posts_of_completion isTask]; rfl
  | relays event w' core relays isCore isRelay same => rw [posts_of_isRelay isRelay]; rfl
  | finalizes isGrace =>
    rw [posts, if_pos isGrace]
    rfl
  | hardStops isBeat =>
    rw [posts, if_neg (by simp [isBeat])]
    rfl
  | stops | works => rfl

/-- A connection stays in the queue of the ingress thread until it is handed over. -/
theorem Taken.accepted_eq (taken : s.Taken event next effects) :
    s.ingress.filterMap IngressTask.socket? ++ event.socket?.toList =
      (effects.filterMap Effect.handoff?).map Prod.snd ++
        next.ingress.filterMap IngressTask.socket? := by
  cases taken with
  | stops =>
    rw [stop_eq, List.filterMap_append]
    cases s.stopping <;> rfl
  | completes event task isArmed isTask =>
    rw [Event.socket?, isTask, List.filterMap_append]
    cases task <;> rfl
  | ingress task ingress isNext =>
    rw [isNext]
    cases task with
    | accepted fd v6 | acceptFailed | acceptAborted => exact List.append_nil _
    | beginShutdown =>
      have silent : (if s.armed then [.acceptAborted] else []).filterMap
          IngressTask.socket? = [] := by
        split_ifs <;> rfl
      rw [runIngress, beginShutdown_eq, List.filterMap_append, silent, List.append_nil]
      exact List.append_nil _
  | relays event w core relays isCore isRelay same =>
    cases event <;> first | exact List.append_nil _ | cases isRelay
  | works | finalizes | hardStops => exact List.append_nil _

/-- The grace timer is on from the shutdown to the end. -/
structure Timed (s : ReverseProxyServer) : Prop where
  before : s.begun = false → s.graceTimer = .off ∧ s.stopped = false
  after : s.begun = true → s.stopped = false → s.graceTimer ≠ .off

theorem Timed.begun_of_on (timed : s.Timed) (on : s.graceTimer ≠ .off) : s.begun = true := by
  by_contra notBegun
  exact on (timed.before (Bool.eq_false_iff.mpr notBegun)).1

theorem Taken.timed (taken : s.Taken event next effects) (timed : s.Timed) : next.Timed := by
  cases taken with
  | stops =>
    rw [stop_eq]
    exact ⟨timed.before, timed.after⟩
  | ingress task ingress isNext =>
    cases task with
    | accepted fd v6 | acceptFailed | acceptAborted => exact ⟨timed.before, timed.after⟩
    | beginShutdown =>
      rw [runIngress, beginShutdown_eq]
      exact ⟨nofun, nofun⟩
  | finalizes isGrace =>
    have begun := timed.begun_of_on (by simp [isGrace])
    refine ⟨?_, nofun⟩
    intro notBegun
    cases begun.symm.trans notBegun
  | hardStops isBeat =>
    have begun := timed.begun_of_on (by simp [isBeat])
    refine ⟨?_, nofun⟩
    intro notBegun
    cases begun.symm.trans notBegun
  | completes | works | relays => exact ⟨timed.before, timed.after⟩

/-- The tasks of the shutdown are posted to all workers alike. -/
theorem Taken.posted_eq (taken : s.Taken event next effects) (sound : s.Sound) (timed : s.Timed)
    (running : s.stopped = false) (w : ℕ) :
    next.posted = s.posted ++ (s.posts w event).filter WorkerTask.isShutdown := by
  cases taken with
  | stops =>
    rw [stop_eq]
    exact (List.append_nil _).symm
  | ingress task ingress isNext =>
    rw [posts_ingress isNext]
    cases task with
    | accepted fd v6 =>
      have isSocket : (s.ingressPosts w (.accepted fd v6)).filter WorkerTask.isShutdown = [] := by
        unfold ingressPosts
        split_ifs <;> rfl
      rw [isSocket]
      exact (List.append_nil _).symm
    | acceptFailed | acceptAborted => exact (List.append_nil _).symm
    | beginShutdown =>
      rw [runIngress, beginShutdown_eq]
      have notBegun := (sound.beforeShutdown isNext).1
      have kept : [WorkerTask.gracefulShutdown].filter WorkerTask.isShutdown =
          [.gracefulShutdown] := rfl
      simp [posted, ingressPosts, notBegun, running, (timed.before notBegun).1, kept]
  | finalizes isGrace =>
    have begun := timed.begun_of_on (by simp [isGrace])
    have kept : [WorkerTask.forceCloseQuic].filter WorkerTask.isShutdown =
        [.forceCloseQuic] := rfl
    simp [posted, posts, begun, running, isGrace, postAll, kept]
  | hardStops isBeat => simp [posted, posts, isBeat]
  | completes event task isArmed isTask =>
    rw [posts_of_completion isTask]
    exact (List.append_nil _).symm
  | relays event w' core relays isCore isRelay same =>
    rw [posts_of_isRelay isRelay]
    exact (List.append_nil _).symm
  | works => exact (List.append_nil _).symm

end Steps

/-! ## The shutdown comes on -/

/-- The steps of the ingress thread that bring the shutdown on. -/
def shutdownSteps (s : ReverseProxyServer) : Event → ℕ
  | .ingress => if s.begun then 0 else 1
  | .graceTimerExpires => 1
  | _ => 0

/-- How many of them are left. -/
def due (s : ReverseProxyServer) : ℕ :=
  if s.stopped then 0
  else
    match s.graceTimer with
    | .beat => 1
    | .grace => 2
    | .off => s.ingress.findIdx (fun task => !task.isAccept) + 3

/-- The shutdown has been asked for, and it is queued until it begins. -/
structure Stopping (s : ReverseProxyServer) : Prop where
  sound : s.Sound
  timed : s.Timed
  stopping : s.stopping = true
  queued : s.begun = false → .beginShutdown ∈ s.ingress

section Progress

variable {s next : ReverseProxyServer} {event : Event} {effects : List Effect}

theorem Stopping.queued_of_off (stopping : s.Stopping) (running : s.stopped = false)
    (off : s.graceTimer = .off) : .beginShutdown ∈ s.ingress := by
  apply stopping.queued
  by_contra begun
  exact stopping.timed.after (Bool.eq_true_of_not_eq_false begun) running off

theorem Stopping.off_of_mem (stopping : s.Stopping) (queued : .beginShutdown ∈ s.ingress) :
    s.begun = false ∧ s.graceTimer = .off ∧ s.stopped = false := by
  have oneShutdown := stopping.sound.oneShutdown
  have counted : 0 < s.ingress.countP fun task => !task.isAccept :=
    List.countP_pos_iff.mpr ⟨_, queued, rfl⟩
  have notBegun : s.begun = false := by
    apply Bool.toNat_eq_zero.mp
    have atMost := Bool.toNat_le s.stopping
    omega
  exact ⟨notBegun, stopping.timed.before notBegun⟩

/-- What is queued behind the shutdown does not delay it. -/
theorem Stopping.due_append (stopping : s.Stopping) (running : s.stopped = false) (armed : Bool)
    (tasks : List IngressTask) : due { s with armed, ingress := s.ingress ++ tasks } = s.due := by
  cases isTimer : s.graceTimer with
  | off =>
    have queued : s.ingress.findIdx (fun task => !task.isAccept) < s.ingress.length :=
      List.findIdx_lt_length_of_exists ⟨_, stopping.queued_of_off running isTimer, rfl⟩
    simp [due, running, isTimer, List.findIdx_append, queued]
  | grace => simp [due, running, isTimer]
  | beat => simp [due, running, isTimer]

/-- The handler of an accept brings the shutdown one step on, unless it has begun. -/
theorem Stopping.due_tail (stopping : s.Stopping) (running : s.stopped = false)
    {task : IngressTask} {ingress : List IngressTask} (isNext : s.ingress = task :: ingress)
    (isAccept : task.isAccept = true) :
    due { s with ingress } + s.shutdownSteps .ingress = s.due := by
  cases begun : s.begun with
  | true =>
    have on := stopping.timed.after begun running
    cases isTimer : s.graceTimer with
    | off => exact absurd isTimer on
    | grace => simp [due, shutdownSteps, begun, running, isTimer]
    | beat => simp [due, shutdownSteps, begun, running, isTimer]
  | false =>
    have off := (stopping.timed.before begun).1
    simp only [due, shutdownSteps, begun, running, off, isNext, List.findIdx_cons, isAccept]
    simp

theorem Stopping.queued_tail (stopping : s.Stopping) {task : IngressTask}
    {ingress : List IngressTask} (isNext : s.ingress = task :: ingress)
    (isAccept : task.isAccept = true) (notBegun : s.begun = false) : .beginShutdown ∈ ingress := by
  have queued := stopping.queued notBegun
  rw [isNext, List.mem_cons] at queued
  rcases queued with rfl | queued
  · cases isAccept
  · exact queued

theorem Stopping.step (stopping : s.Stopping)
    (stepped : ReverseProxyServer.step s event = some (next, effects)) :
    next.Stopping ∧ next.due + s.shutdownSteps event ≤ s.due := by
  have running := running_of_step stepped
  have taken := taken_of_step stepped
  have sound := stopping.sound.step taken
  have timed := taken.timed stopping.timed
  cases taken with
  | stops =>
    rw [stop_eq, if_pos stopping.stopping, List.append_nil, ← stopping.stopping] at *
    exact ⟨stopping, Nat.le_refl _⟩
  | completes event task isArmed isTask =>
    refine ⟨⟨sound, timed, stopping.stopping, ?_⟩, ?_⟩
    · intro notBegun
      exact List.mem_append_left _ (stopping.queued notBegun)
    · rw [stopping.due_append running]
      cases event <;> first | exact Nat.le_refl _ | cases isTask
  | ingress task ingress isNext =>
    cases task with
    | accepted fd v6 | acceptFailed | acceptAborted =>
      exact ⟨⟨sound, timed, stopping.stopping, stopping.queued_tail isNext rfl⟩,
        (stopping.due_tail running isNext rfl).le⟩
    | beginShutdown =>
      rcases stopping.off_of_mem (isNext ▸ List.mem_cons_self) with ⟨notBegun, off, -⟩
      rw [runIngress, beginShutdown_eq] at sound timed ⊢
      refine ⟨⟨sound, timed, stopping.stopping, nofun⟩, ?_⟩
      simp [due, shutdownSteps, running, off, notBegun]
  | works w core task queue isCore isNext =>
    exact ⟨⟨sound, timed, stopping.stopping, stopping.queued⟩, Nat.le_refl _⟩
  | relays event w core relays isCore isRelay same =>
    refine ⟨⟨sound, timed, stopping.stopping, stopping.queued⟩, ?_⟩
    cases event <;> first | exact Nat.le_refl _ | cases isRelay
  | finalizes isGrace =>
    refine ⟨⟨sound, timed, stopping.stopping, stopping.queued⟩, ?_⟩
    simp [due, shutdownSteps, postAll, running, isGrace]
  | hardStops isBeat =>
    refine ⟨⟨sound, timed, stopping.stopping, stopping.queued⟩, ?_⟩
    simp [due, shutdownSteps, running, isBeat]

/-- Only `stop()` asks for the shutdown, and it queues it. -/
theorem Taken.asks (taken : s.Taken event next effects) (notStopping : s.stopping = false)
    (stopping : next.stopping = true) : .beginShutdown ∈ next.ingress := by
  cases taken with
  | stops => simp [stop_eq, notStopping]
  | ingress task ingress isNext =>
    cases task with
    | accepted fd v6 | acceptFailed | acceptAborted => cases notStopping.symm.trans stopping
    | beginShutdown =>
      rw [runIngress, beginShutdown_eq] at stopping
      cases notStopping.symm.trans stopping
  | _ => cases notStopping.symm.trans stopping

/-- What holds of a server at any time. -/
structure Regular (s : ReverseProxyServer) : Prop where
  sound : s.Sound
  timed : s.Timed
  stopping : s.stopping = true → s.Stopping

theorem regular_start (rules : List Router.Rule) (idleTimeout : ℕ) (numThreads : ℤ) :
    Regular (start rules idleTimeout numThreads) :=
  ⟨sound_start .., ⟨fun _ => ⟨rfl, rfl⟩, nofun⟩, nofun⟩

theorem Regular.step (regular : s.Regular)
    (stepped : ReverseProxyServer.step s event = some (next, effects)) : next.Regular := by
  have taken := taken_of_step stepped
  have sound := regular.sound.step taken
  have timed := taken.timed regular.timed
  refine ⟨sound, timed, ?_⟩
  intro isStopping
  cases asked : s.stopping with
  | true => exact ((regular.stopping asked).step stepped).1
  | false => exact ⟨sound, timed, isStopping, fun _ => taken.asks asked isStopping⟩

end Progress

theorem posted_of_not_begun {s : ReverseProxyServer} (timed : s.Timed) (notBegun : s.begun = false) :
    s.posted = [] := by
  rcases timed.before notBegun with ⟨off, running⟩
  simp [posted, notBegun, off, running]

theorem posted_of_stopped {s : ReverseProxyServer} (timed : s.Timed) (stopped : s.stopped = true) :
    s.posted = [.gracefulShutdown, .forceCloseQuic] := by
  have begun : s.begun = true := by
    by_contra notBegun
    have running := (timed.before (Bool.eq_false_iff.mpr notBegun)).2
    cases stopped.symm.trans running
  simp [posted, begun, stopped]

end ReverseProxyServer

namespace AcceptPath

open ReverseProxyServer (Event)

/-! ## The runs in which no handler throws -/

/-- No call of the handler fails. -/
def Quiet (process : Process) (input : Input) : Prop :=
  thrown process.server input.answers input.event = none

section Quiet

variable {process next first : Process} {input : Input} {effects : List Effect}
  {log : List Transition}

theorem quiet_of_answered (runs : Runs (logged step) anyInput first log process)
    (answered : ∀ t ∈ log, Answered t) : Runs (logged step) Quiet first log process :=
  runs.restrict fun t isLogged => (thrown_eq_none_iff t).mpr (answered t isLogged)

/-- The server takes the step. -/
theorem Quiet.stepped (quiet : Quiet process input)
    (stepped : step process input = some (next, effects)) :
    ∃ server worked, process.server.step input.event = some (server, worked) ∧
      next = { process with server } ∧ effects = worked.map .server := by
  cases taken_of_step stepped with
  | works server worked _ isStep => exact ⟨server, worked, isStep, rfl, rfl⟩
  | throws throw isThrown => cases quiet.symm.trans isThrown

end Quiet

/-! ## The accounts of a run -/

/-- The worker and the connection of a hand-off. -/
def Effect.handoff? : Effect → Option (ℕ × ℕ)
  | .server effect => effect.handoff?
  | _ => none

/-- The connections that the kernel has accepted. -/
def connections (log : List Transition) : List ℕ := log.filterMap fun t => t.input.event.socket?

/-- The connections that the ingress thread has posted, each with its worker. -/
def handoffs (log : List Transition) : List (ℕ × ℕ) :=
  log.flatMap fun t => t.actions.filterMap Effect.handoff?

/-- Those of one worker. -/
def handoffsTo (w : ℕ) (log : List Transition) : List ℕ :=
  (handoffs log).filterMap fun handoff => if handoff.1 = w then some handoff.2 else none

/-- The tasks that a worker has run. -/
def executed (w : ℕ) (log : List Transition) : List WorkerTask :=
  log.flatMap fun t => t.source.server.ran t.input.event w

/-- What has come of the connections and of the shutdown. -/
structure Accounts (log : List Transition) (process : Process) : Prop where
  regular : process.server.Regular
  accepted : connections log =
    (handoffs log).map Prod.snd ++ process.server.ingress.filterMap IngressTask.socket?
  sockets : ∀ w core, process.server.cores[w]? = some core →
    (executed w log ++ core.queue).filterMap WorkerTask.socket? = handoffsTo w log
  shutdown : ∀ w core, process.server.cores[w]? = some core →
    (executed w log ++ core.queue).filter WorkerTask.isShutdown = process.server.posted

section Accounts

variable {log : List Transition}

theorem connections_concat (t : Transition) :
    connections (log ++ [t]) = connections log ++ t.input.event.socket?.toList := by
  cases isSocket : t.input.event.socket? <;> simp [connections, isSocket]

theorem handoffs_concat (t : Transition) :
    handoffs (log ++ [t]) = handoffs log ++ t.actions.filterMap Effect.handoff? := by
  simp [handoffs]

theorem executed_concat (w : ℕ) (t : Transition) :
    executed w (log ++ [t]) = executed w log ++ t.source.server.ran t.input.event w := by
  simp [executed]

/-- The hand-offs of a step at which nothing is thrown are the server's. -/
theorem handoff?_map (effects : List ReverseProxyServer.Effect) :
    (effects.map Effect.server).filterMap Effect.handoff? =
      effects.filterMap ReverseProxyServer.Effect.handoff? :=
  List.filterMap_map

theorem accounts_start (rules : List Router.Rule) (idleTimeout : ℕ) (numThreads : ℤ) :
    Accounts [] (start rules idleTimeout numThreads) := by
  have fresh : ∀ (w : ℕ) (core : ProxyCore),
      (start rules idleTimeout numThreads).server.cores[w]? = some core → core.queue = [] := by
    intro w core isCore
    rw [List.eq_of_mem_replicate (List.mem_of_getElem? isCore)]
  refine ⟨ReverseProxyServer.regular_start .., rfl, ?_, ?_⟩
  · intro w core isCore
    rw [fresh w core isCore]
    rfl
  · intro w core isCore
    rw [fresh w core isCore]
    rfl

theorem Accounts.step {process : Process} {input : Input} {server : ReverseProxyServer}
    {effects : List ReverseProxyServer.Effect} (accounts : Accounts log process)
    (stepped : process.server.step input.event = some (server, effects)) :
    Accounts (log ++ [⟨process, input, effects.map .server, { process with server }⟩])
      { process with server } := by
  have running := ReverseProxyServer.running_of_step stepped
  have taken := ReverseProxyServer.taken_of_step stepped
  refine ⟨accounts.regular.step stepped, ?_, ?_, ?_⟩
  · rw [connections_concat, handoffs_concat, handoff?_map, accounts.accepted, List.append_assoc,
      taken.accepted_eq, List.map_append, List.append_assoc]
  · intro w core' isCore'
    rcases taken.queues isCore' with ⟨core, isCore, queues⟩
    rw [executed_concat, List.append_assoc, queues, ← List.append_assoc, List.filterMap_append,
      accounts.sockets w core isCore, taken.handoffs_eq w, handoffsTo, handoffsTo,
      handoffs_concat, handoff?_map, List.filterMap_append]
  · intro w core' isCore'
    rcases taken.queues isCore' with ⟨core, isCore, queues⟩
    rw [executed_concat, List.append_assoc, queues, ← List.append_assoc, List.filter_append,
      accounts.shutdown w core isCore,
      taken.posted_eq accounts.regular.sound accounts.regular.timed running w]

variable {rules : List Router.Rule} {idleTimeout : ℕ} {numThreads : ℤ} {process : Process}

/--
As long as no call in a handler of the accept path throws, nothing is lost, doubled or
reordered on its way to the workers.  The connections that the kernel accepted are handed over
in order, and each worker runs those that were handed to it in order, each once.  It is told to
shut down gracefully once, and to close its QUIC connections once and only after that; both have
been posted to it when the server stops.
-/
theorem ingress_posts_arrive
    (runs : Runs (logged step) anyInput (start rules idleTimeout numThreads) log process)
    (answered : ∀ t ∈ log, Answered t) :
    connections log = (handoffs log).map Prod.snd ++
        process.server.ingress.filterMap IngressTask.socket? ∧
      (∀ w core, process.server.cores[w]? = some core →
        (executed w log ++ core.queue).filterMap WorkerTask.socket? = handoffsTo w log ∧
        (executed w log ++ core.queue).filter WorkerTask.isShutdown = process.server.posted) ∧
      (process.server.begun = false → process.server.posted = []) ∧
      (process.server.stopped = true →
        process.server.posted = [.gracefulShutdown, .forceCloseQuic]) := by
  have accounts : Accounts log process := by
    apply Runs.invariant (accounts_start rules idleTimeout numThreads) ?_
      (quiet_of_answered runs answered)
    intro log state input next actions accounts quiet stepped
    rcases logged_eq_some_iff.mp stepped with ⟨effects, taken, rfl⟩
    rcases quiet.stepped taken with ⟨server, worked, isStep, rfl, rfl⟩
    exact accounts.step isStep
  have timed := accounts.regular.timed
  refine ⟨accounts.accepted, ?_, ReverseProxyServer.posted_of_not_begun timed,
    ReverseProxyServer.posted_of_stopped timed⟩
  intro w core isCore
  exact ⟨accounts.sockets w core isCore, accounts.shutdown w core isCore⟩

/-- Three connections and two workers, of which one runs nothing before the server stops. -/
theorem ingress_posts_arrive_twoWorkers :
    ∃ log process core, Runs (logged step) anyInput (start [] 30 2) log process ∧
      (∀ t ∈ log, Answered t) ∧
      connections log = [7, 8, 9] ∧ handoffs log = [(0, 7), (1, 8), (0, 9)] ∧
      process.server.cores[1]? = some core ∧ executed 1 log = [] ∧
      core.queue.filterMap WorkerTask.socket? = [8] ∧
      core.queue.filter WorkerTask.isShutdown = [.gracefulShutdown, .forceCloseQuic] := by
  have reached : (run (logged step) (fun _ _ => true) (start [] 30 2)
      ([.connection 7 false, .ingress, .connection 8 false, .worker 0, .ingress,
        .connection 9 true, .ingress, .stop, .ingress, .graceTimerExpires, .worker 0,
        .graceTimerExpires].map fun event => { event })).any
      (fun last => decide (
        (∀ t ∈ last.2, thrown t.source.server t.input.answers t.input.event = none) ∧
          connections last.2 = [7, 8, 9] ∧ handoffs last.2 = [(0, 7), (1, 8), (0, 9)] ∧
          (last.1.server.cores[1]?).isSome = true ∧ executed 1 last.2 = [] ∧
          last.1.server.stopped = true)) = true := by
    decide +kernel
  rcases exists_runs_any reached with
    ⟨log, process, runs, quiet, accepted, handed, isCore, idle, stopped⟩
  rcases Option.isSome_iff_exists.mp isCore with ⟨core, isCore⟩
  have answered : ∀ t ∈ log, Answered t :=
    fun t isLogged => (thrown_eq_none_iff t).mp (quiet t isLogged)
  rcases ingress_posts_arrive runs answered with ⟨-, each, -, last⟩
  have mine := each 1 core isCore
  dsimp only at handed idle stopped
  rw [idle, List.nil_append, last stopped, handoffsTo, handed] at mine
  exact ⟨log, process, core, runs, answered, accepted, handed, isCore, idle, mine⟩

end Accounts

/-! ## The shutdown comes to its end -/

/-- The handlers of the ingress thread that bring the shutdown on. -/
def shutdownSteps (process : Process) (input : Input) : ℕ :=
  process.server.shutdownSteps input.event

section Shutdown

variable {rules : List Router.Rule} {idleTimeout : ℕ} {numThreads : ℤ}
  {before log : List Transition} {process last : Process}

/-- Nothing has been thrown, and the server is as it should be. -/
def Sane (process : Process) : Prop := process.terminated = false ∧ process.server.Regular

theorem Sane.step {input : Input} {next : Process} {effects : List Effect} (sane : Sane process)
    (quiet : Quiet process input) (stepped : step process input = some (next, effects)) :
    Sane next := by
  rcases quiet.stepped stepped with ⟨server, worked, isStep, rfl, rfl⟩
  exact ⟨sane.1, sane.2.step isStep⟩

end Shutdown

end AcceptPath

end ReverseProxy
