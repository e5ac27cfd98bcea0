import ReverseProxy.Transport.SendSpecs

/-!
# Waking up a worker that could not send

A worker sends on the sockets of the demux from its own thread; the sockets are watched on
the ingress thread.  A blocked batch is therefore retried over three posts
(`transport/quic_demux.cpp`): the worker posts `arm_send_retry` to the ingress, the write
watch posts `flush_unsent_packets` to every worker, and a flush that blocks again starts
over.

Every post, and every turn of the loop that posts to the workers, is a step of its own here,
so that the other threads run between any two of them.
-/

namespace ReverseProxy

open Machine

namespace QuicPacketDemux

/-- The constructor; it throws without a socket for IPv4, and IPv6 is best effort. -/
def construct (fd : ℕ) (dualStack : Bool) (fd6 : Option ℕ) : QuicPacketDemux :=
  match dualStack, fd6 with
  | true, some fd6 => { rawFd := fd, raw6Fd := fd6 }
  | _, _ => { rawFd := fd }

/-- `is_open()` of `socket_` and of `socket6_`, whose handles are kept only while they are open. -/
def isOpen (demux : QuicPacketDemux) : AddressFamily → Bool
  | .inet => demux.rawFd ≠ -1
  | .inet6 => demux.raw6Fd ≠ -1

end QuicPacketDemux

/-- An armed flag, and the number of `async_wait`s that are outstanding on its socket. -/
structure WriteWatch where
  armed : Bool := false
  waits : ℕ := 0
  deriving DecidableEq, Repr

/-- `QuicPacketDemux::arm_write_watch`. -/
def WriteWatch.arm (watch : WriteWatch) (isOpen : Bool) : WriteWatch :=
  if watch.armed || !isOpen then watch else { armed := true, waits := watch.waits + 1 }

/-- What a worker's thread has to do with the retries. -/
structure SendingWorker where
  /-- `on_packets_out_cb` has found the batch blocked and has not told the demux yet. -/
  reporting : Bool := false
  /-- The posts of `flush_unsent_packets` in the queue of the worker's `io_context`. -/
  flushes : ℕ := 0
  deriving DecidableEq, Repr

/-- The engines, and the send retry of their demux. -/
structure SendRetry where
  demux : QuicPacketDemux
  /-- `send_retry_armed_` and `send_retry6_armed_`, with the waits that they stand for. -/
  watch : AddressFamily → WriteWatch := fun _ => {}
  /-- The posts of `arm_send_retry` in the queue of the ingress. -/
  notifies : ℕ := 0
  /-- The workers that a running watch handler has still to post to. -/
  posting : List ℕ := []
  worker : ℕ → SendingWorker := fun _ => {}

namespace SendRetry

/-- What can happen. -/
inductive Event where
  | packetsOut (engine : ℕ) (specs : List OutSpec) (sendmsg : ℕ → SendmsgResult)
  | notifyTxBlocked (engine : ℕ)
  | armSendRetry
  /-- The handler of an `async_wait` starts; it gets an error only if the wait was cancelled. -/
  | watchFired (family : AddressFamily) (ec : Bool)
  | postFlush
  | flushUnsentPackets (engine : ℕ)

/-- What is done for an engine. -/
inductive Effect where
  | attempt (engine : ℕ) (blocked : Bool)
  | flush (engine : ℕ)
  deriving DecidableEq, Repr

/-- Changes a worker. -/
def setWorker (state : SendRetry) (engine : ℕ) (worker : SendingWorker) : SendRetry :=
  { state with worker := Function.update state.worker engine worker }

/-- Changes a watch. -/
def setWatch (state : SendRetry) (family : AddressFamily) (watch : WriteWatch) : SendRetry :=
  { state with watch := Function.update state.watch family watch }

/-- `arm_write_watch`. -/
def armWriteWatch (state : SendRetry) (family : AddressFamily) : SendRetry :=
  state.setWatch family ((state.watch family).arm (state.demux.isOpen family))

/-- `arm_send_retry`. -/
def armSendRetry (state : SendRetry) : SendRetry :=
  if state.demux.isOpen .inet6 then (state.armWriteWatch .inet).armWriteWatch .inet6
  else state.armWriteWatch .inet

/--
One thread takes a step.  A worker does nothing else before a blocked `on_packets_out_cb` has
returned, and the ingress nothing else before a watch handler has.
-/
def step : Step SendRetry Event Effect
  | state, .packetsOut engine specs sendmsg =>
    if engine ∈ state.demux.workers ∧ (state.worker engine).reporting = false then
      let blocked := (QuicServerEngine.onPacketsOutCb state.demux specs sendmsg).2
      some (state.setWorker engine { state.worker engine with reporting := blocked },
        [.attempt engine blocked])
    else none
  | state, .notifyTxBlocked engine =>
    if (state.worker engine).reporting then
      some ({ state.setWorker engine { state.worker engine with reporting := false } with
        notifies := state.notifies + 1 }, [])
    else none
  | state, .armSendRetry =>
    if 0 < state.notifies ∧ state.posting = [] then
      some ({ state with notifies := state.notifies - 1 }.armSendRetry, [])
    else none
  | state, .watchFired family ec =>
    if 0 < (state.watch family).waits ∧ state.posting = [] then
      some ({ state.setWatch family { armed := false, waits := (state.watch family).waits - 1 } with
        posting := if ec then [] else state.demux.workers }, [])
    else none
  | state, .postFlush =>
    match state.posting with
    | [] => none
    | engine :: later =>
      some ({ state.setWorker engine { state.worker engine with
        flushes := (state.worker engine).flushes + 1 } with posting := later }, [])
  | state, .flushUnsentPackets engine =>
    -- the packets that lsquic then sends are attempts of their own
    if 0 < (state.worker engine).flushes ∧ (state.worker engine).reporting = false then
      some (state.setWorker engine { state.worker engine with
        flushes := (state.worker engine).flushes - 1 }, [.flush engine])
    else none

/-- `stop()` does not cancel the watches. -/
def NotCancelled (_ : SendRetry) : Event → Prop
  | .watchFired _ ec => ec = false
  | _ => True

instance (state : SendRetry) : DecidablePred (NotCancelled state)
  | .watchFired _ ec => inferInstanceAs (Decidable (ec = false))
  | .packetsOut .. => inferInstanceAs (Decidable True)
  | .notifyTxBlocked _ => inferInstanceAs (Decidable True)
  | .armSendRetry => inferInstanceAs (Decidable True)
  | .postFlush => inferInstanceAs (Decidable True)
  | .flushUnsentPackets _ => inferInstanceAs (Decidable True)

/-- All workers have been added to a demux, and nothing has been sent. -/
def start (fd : ℕ) (dualStack : Bool) (fd6 : Option ℕ) (engines : List ℕ) : SendRetry where
  demux := engines.foldl (fun demux engine => (demux.addWorker engine).1)
    (.construct fd dualStack fd6)

/-- The engine it is done for. -/
def Effect.engine : Effect → ℕ
  | .attempt engine _ => engine
  | .flush engine => engine

/-- The last that the worker did was an attempt that hit `EAGAIN`. -/
def Unflushed (engine : ℕ) (trace : List Effect) : Prop :=
  (trace.filter (·.engine = engine)).getLast? = some (.attempt engine true)

instance (engine : ℕ) (trace : List Effect) : Decidable (Unflushed engine trace) :=
  inferInstanceAs (Decidable (_ = _))

/-- A retry of the worker's packets is on its way between two threads. -/
def WakeUp (state : SendRetry) (engine : ℕ) : Prop :=
  0 < state.notifies ∨ (∃ family, (state.watch family).armed = true) ∨
    0 < (state.worker engine).flushes

/-- The worker or the ingress has yet to make the post that the retry depends on. -/
def Posting (state : SendRetry) (engine : ℕ) : Prop :=
  (state.worker engine).reporting = true ∨ engine ∈ state.posting

/-- No wake-up is lost. -/
structure NoLostWakeUp (trace : List Effect) (state : SendRetry) : Prop where
  /-- Between two handlers nothing is in the middle of posting. -/
  wakesUp : ∀ engine, Unflushed engine trace → state.WakeUp engine ∨ state.Posting engine
  /-- The flag is set exactly while a wait is outstanding, and there is never a second one. -/
  armed_iff : ∀ family, (state.watch family).armed = true ↔ (state.watch family).waits = 1
  waits_le : ∀ family, (state.watch family).waits ≤ 1

variable {state : SendRetry} {engine : ℕ} {trace : List Effect}

theorem unflushed_snoc_iff {effect : Effect} :
    Unflushed engine (trace ++ [effect]) ↔
      if effect.engine = engine then effect = .attempt engine true else Unflushed engine trace := by
  rw [Unflushed, List.filter_append]
  split_ifs with own
  · simp [own]
  · simp [own, Unflushed]

@[simp]
theorem worker_setWorker_self (worker : SendingWorker) :
    (state.setWorker engine worker).worker engine = worker :=
  Function.update_self ..

theorem worker_setWorker_of_ne {other : ℕ} (ne : other ≠ engine) (worker : SendingWorker) :
    (state.setWorker engine worker).worker other = state.worker other :=
  Function.update_of_ne ne ..

theorem isOpen_construct (fd : ℕ) (dualStack : Bool) (fd6 : Option ℕ) :
    (QuicPacketDemux.construct fd dualStack fd6).isOpen .inet = true := by
  have handle : (fd : ℤ) ≠ -1 := by omega
  unfold QuicPacketDemux.construct
  split <;> simp [QuicPacketDemux.isOpen, handle]

theorem isOpen_foldl_addWorker (engines : List ℕ) (demux : QuicPacketDemux)
    (family : AddressFamily) :
    (engines.foldl (fun demux engine => (demux.addWorker engine).1) demux).isOpen family =
      demux.isOpen family := by
  induction engines generalizing demux with
  | nil => rfl
  | cons engine engines ih =>
    rw [List.foldl_cons, ih]
    cases family <;> rfl

end SendRetry

/-- The flag stands for one wait. -/
def WriteWatch.Sound (watch : WriteWatch) : Prop :=
  watch.waits = if watch.armed then 1 else 0

variable {watch : WriteWatch}

theorem WriteWatch.Sound.arm (sound : watch.Sound) (isOpen : Bool) : (watch.arm isOpen).Sound := by
  unfold WriteWatch.arm
  split_ifs with skip
  · exact sound
  · have idle : watch.armed = false := by
      rw [Bool.or_eq_true, not_or] at skip
      simpa using skip.1
    rw [WriteWatch.Sound, idle] at sound
    simpa [WriteWatch.Sound] using sound

theorem WriteWatch.armed_arm : (watch.arm true).armed = true := by
  unfold WriteWatch.arm
  split_ifs with skip
  · simpa using skip
  · rfl

theorem WriteWatch.Sound.armed_iff (sound : watch.Sound) :
    watch.armed = true ↔ watch.waits = 1 := by
  rw [sound]
  simp

theorem WriteWatch.Sound.waits_le (sound : watch.Sound) : watch.waits ≤ 1 := by
  rw [sound]
  split <;> omega

theorem WriteWatch.Sound.fired (sound : watch.Sound) (waiting : 0 < watch.waits) :
    watch.waits - 1 = 0 := by
  have bound := sound.waits_le
  omega

namespace SendRetry

variable {state : SendRetry} {engine : ℕ} {trace : List Effect}

theorem armed_armSendRetry (opened : state.demux.isOpen .inet = true) :
    (state.armSendRetry.watch .inet).armed = true := by
  have first : ((state.armWriteWatch .inet).watch .inet).armed = true := by
    rw [armWriteWatch, opened]
    simp [setWatch, WriteWatch.armed_arm]
  unfold armSendRetry
  split_ifs
  · rw [armWriteWatch, setWatch]
    simpa using first
  · exact first

theorem sound_setWatch (sound : ∀ family, (state.watch family).Sound) (changed : AddressFamily)
    (new : watch.Sound) : ∀ family, ((state.setWatch changed watch).watch family).Sound := by
  intro family
  unfold setWatch
  rcases eq_or_ne family changed with rfl | other
  · simpa using new
  · simpa [other] using sound family

theorem sound_armSendRetry (sound : ∀ family, (state.watch family).Sound) :
    ∀ family, (state.armSendRetry.watch family).Sound := by
  have first := sound_setWatch sound .inet ((sound .inet).arm (state.demux.isOpen .inet))
  unfold armSendRetry
  split_ifs
  · exact sound_setWatch first .inet6 ((first .inet6).arm _)
  · exact first

@[simp]
theorem demux_armSendRetry : state.armSendRetry.demux = state.demux := by
  unfold armSendRetry
  split_ifs <;> rfl

/-- The retry of a blocked worker has not been lost. -/
def Held (state : SendRetry) (engine : ℕ) : Prop :=
  state.WakeUp engine ∨ state.Posting engine

theorem Held.setWorker_of_ne {other : ℕ} (held : state.Held other) (ne : other ≠ engine)
    (worker : SendingWorker) : (state.setWorker engine worker).Held other := by
  unfold Held WakeUp Posting at held ⊢
  rw [worker_setWorker_of_ne ne]
  exact held

/-- What the steps of all threads keep. -/
structure Retrying (trace : List Effect) (state : SendRetry) : Prop where
  opened : state.demux.isOpen .inet = true
  sound : ∀ family, (state.watch family).Sound
  added : ∀ engine, Unflushed engine trace → engine ∈ state.demux.workers
  held : ∀ engine, Unflushed engine trace → state.Held engine

variable {next : SendRetry}

/-- A step of a worker's engine. -/
theorem Retrying.acted (holds : Retrying trace state) {effect : Effect}
    (demux : next.demux = state.demux) (watch : next.watch = state.watch)
    (own : effect = .attempt effect.engine true →
      effect.engine ∈ state.demux.workers ∧ next.Held effect.engine)
    (others : ∀ other, other ≠ effect.engine → state.Held other → next.Held other) :
    Retrying (trace ++ [effect]) next := by
  have each : ∀ engine, Unflushed engine (trace ++ [effect]) →
      engine ∈ state.demux.workers ∧ next.Held engine := by
    intro engine unflushed
    rw [unflushed_snoc_iff] at unflushed
    split_ifs at unflushed with same
    · subst same
      exact own unflushed
    · exact ⟨holds.added engine unflushed, others engine (Ne.symm same) (holds.held engine unflushed)⟩
  refine ⟨?_, ?_, ?_, ?_⟩
  · rw [demux]
    exact holds.opened
  · rw [watch]
    exact holds.sound
  · intro engine unflushed
    rw [demux]
    exact (each engine unflushed).1
  · intro engine unflushed
    exact (each engine unflushed).2

/-- A step by which a retry is handed on. -/
theorem Retrying.handedOn (holds : Retrying trace state) (demux : next.demux = state.demux)
    (sound : ∀ family, (next.watch family).Sound)
    (kept : ∀ engine ∈ state.demux.workers, state.Held engine → next.Held engine) :
    Retrying (trace ++ []) next := by
  rw [List.append_nil]
  refine ⟨?_, sound, ?_, ?_⟩
  · rw [demux]
    exact holds.opened
  · rw [demux]
    exact holds.added
  · intro engine unflushed
    exact kept engine (holds.added engine unflushed) (holds.held engine unflushed)

/-- One turn of the loop posts to the first worker and keeps the others in the list. -/
theorem Held.postFlush {later : List ℕ} {other : ℕ} (held : state.Held other)
    (posting : state.posting = engine :: later) :
    { state.setWorker engine { state.worker engine with
        flushes := (state.worker engine).flushes + 1 } with posting := later }.Held other := by
  rcases eq_or_ne other engine with rfl | ne
  · apply Or.inl
    apply Or.inr
    apply Or.inr
    simp
  · rcases held.setWorker_of_ne ne { state.worker engine with
        flushes := (state.worker engine).flushes + 1 } with wakeUp | reporting | listed
    · exact .inl wakeUp
    · exact .inr (.inl reporting)
    · apply Or.inr
      apply Or.inr
      change other ∈ state.posting at listed
      rw [posting] at listed
      exact List.mem_of_ne_of_mem ne listed

theorem Retrying.step {event : Event} {effects : List Effect} (holds : Retrying trace state)
    (allowed : NotCancelled state event) (taken : step state event = some (next, effects)) :
    Retrying (trace ++ effects) next := by
  cases event with
  | packetsOut engine specs sendmsg =>
    simp only [SendRetry.step, Option.ite_none_right_eq_some] at taken
    rcases taken with ⟨⟨added, -⟩, ⟨⟩⟩
    refine holds.acted rfl rfl ?_ ?_
    · intro blocked
      refine ⟨added, .inr (.inl ?_)⟩
      simpa [Effect.engine] using blocked
    · intro other ne held
      exact held.setWorker_of_ne ne _
  | notifyTxBlocked engine =>
    simp only [SendRetry.step, Option.ite_none_right_eq_some] at taken
    rcases taken with ⟨-, ⟨⟩⟩
    refine holds.handedOn rfl holds.sound ?_
    intro other _ _
    exact .inl (.inl (Nat.succ_pos _))
  | armSendRetry =>
    simp only [SendRetry.step, Option.ite_none_right_eq_some] at taken
    rcases taken with ⟨-, ⟨⟩⟩
    refine holds.handedOn demux_armSendRetry (sound_armSendRetry holds.sound) ?_
    intro other _ _
    exact .inl (.inr (.inl ⟨.inet, armed_armSendRetry holds.opened⟩))
  | watchFired family ec =>
    simp only [SendRetry.step, Option.ite_none_right_eq_some] at taken
    rcases taken with ⟨⟨waiting, -⟩, ⟨⟩⟩
    refine holds.handedOn rfl ?_ ?_
    · apply sound_setWatch holds.sound
      exact (holds.sound family).fired waiting
    · -- every worker is in the list that the handler goes through
      intro other added _
      have ran : ec = false := allowed
      apply Or.inr
      apply Or.inr
      simpa [ran] using added
  | postFlush =>
    simp only [SendRetry.step] at taken
    split at taken
    · simp at taken
    · rename_i engine later posting
      cases taken
      refine holds.handedOn rfl holds.sound ?_
      intro other _ held
      exact held.postFlush posting
  | flushUnsentPackets engine =>
    simp only [SendRetry.step, Option.ite_none_right_eq_some] at taken
    rcases taken with ⟨-, ⟨⟩⟩
    refine holds.acted rfl rfl ?_ ?_
    · intro impossible
      cases impossible
    · intro other ne held
      exact held.setWorker_of_ne ne _

theorem retrying_start (fd : ℕ) (dualStack : Bool) (fd6 : Option ℕ) (engines : List ℕ) :
    Retrying [] (start fd dualStack fd6 engines) := by
  refine ⟨?_, ?_, ?_, ?_⟩
  · rw [start, isOpen_foldl_addWorker]
    exact isOpen_construct fd dualStack fd6
  · intro family
    rfl
  · intro engine unflushed
    cases unflushed
  · intro engine unflushed
    cases unflushed

/--
A worker that could not send and has not flushed since has a retry under way, whatever the
threads do in between, and a watch is armed exactly while its socket is waited for.
-/
theorem no_lost_wakeUp (fd : ℕ) (dualStack : Bool) (fd6 : Option ℕ) (engines : List ℕ)
    {trace : List Effect} {state : SendRetry}
    (runs : Runs step NotCancelled (start fd dualStack fd6 engines) trace state) :
    NoLostWakeUp trace state := by
  have holds : Retrying trace state := by
    apply Runs.invariant ?_ ?_ runs
    · exact retrying_start fd dualStack fd6 engines
    · intro trace state event next effects ih allowed taken
      exact ih.step allowed taken
  refine ⟨holds.held, ?_, ?_⟩
  · intro family
    exact (holds.sound family).armed_iff
  · intro family
    exact (holds.sound family).waits_le

/-- The watch of the other socket fires first, and the second worker is still to be posted to. -/
theorem no_lost_wakeUp_secondWorker :
    ∃ trace state, Runs step NotCancelled (start 3 true (some 4) [0, 1]) trace state ∧
      Unflushed 1 trace ∧ NoLostWakeUp trace state := by
  have reached : (run step (fun state event => decide (NotCancelled state event))
      (start 3 true (some 4) [0, 1])
      [.packetsOut 1 [⟨.inet, []⟩] (fun _ => .wouldBlock), .notifyTxBlocked 1, .armSendRetry,
        .watchFired .inet6 false, .postFlush]).any
      (fun result => decide (Unflushed 1 result.2)) = true := by
    decide +kernel
  rcases exists_runs_of_run reached with ⟨trace, state, runs, unflushed⟩
  exact ⟨trace, state, runs, unflushed,
    no_lost_wakeUp 3 true (some 4) [0, 1] runs⟩

end SendRetry

end ReverseProxy
