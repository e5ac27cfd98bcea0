import Mathlib.Data.Int.Notation
import ReverseProxy.Machine.Run
import ReverseProxy.Machine.Timer

/-!
# The ticks of the QUIC engines

`schedule_tick` of `QuicServerEngine` and of `QuicClientEngine` (`transport/quic_transport.cpp`),
which are the same code: both engines ask lsquic when they have to be processed next and
set their timer to it.  Time is counted in microseconds, the unit of lsquic.
-/

namespace ReverseProxy

open Machine

/-- What `lsquic_engine_earliest_adv_tick` returns, and the `int` that it sets. -/
structure AdvTick where
  next : ℕ
  diff : ℤ
  isInt : -2147483648 ≤ diff ∧ diff < 2147483648
  deriving DecidableEq

/-- The two engines. -/
inductive EngineRole where
  | server
  | client
  deriving DecidableEq, Repr

/-- An engine and its timer. -/
structure QuicEngine where
  role : EngineRole
  now : ℕ := 0
  tickTimer : Timer := {}
  /-- Only the client engine starts by itself, on its first connection. -/
  started : Bool := false
  deriving DecidableEq

namespace QuicEngine

/-- A call of `schedule_tick`: when it was, what lsquic reported, and the timer behind it. -/
structure Scheduled where
  now : ℕ
  report : AdvTick
  timer : Timer
  deriving DecidableEq

/-- What can happen to an engine. -/
inductive Input where
  | elapse (duration : ℕ)
  /-- The wait on the timer completes. -/
  | expire
  /-- The oldest queued handler runs. -/
  | onTick (report : AdvTick)
  /-- `QuicServerEngine::start`. -/
  | start (report : AdvTick)
  | deliverPacket (report : AdvTick)
  /-- `connected` is false if no address, no socket or no connection could be had. -/
  | connect (atStart report : AdvTick) (connected : Bool)
  | onPacket (failed : Bool) (report : AdvTick)
  deriving DecidableEq

/-- The time that the timer is set to, in milliseconds. -/
def tickDelay (report : AdvTick) : ℕ :=
  if report.diff < 0 then 0
  else if report.next = 0 ∨ 500 < report.diff % 4294967296 then 500
  else report.diff.toNat

/-- `schedule_tick`. -/
def scheduleTick (engine : QuicEngine) (report : AdvTick) : QuicEngine × List Scheduled :=
  let tickTimer := (engine.tickTimer.expiresAfter engine.now (1000 * tickDelay report)).asyncWait
  ({ engine with tickTimer }, [⟨engine.now, report, tickTimer⟩])

/-- The lazy start in `QuicClientEngine::connect`. -/
def ensureStarted (engine : QuicEngine) (report : AdvTick) : QuicEngine × List Scheduled :=
  if engine.started then (engine, [])
  else
    let result := engine.scheduleTick report
    ({ result.1 with started := true }, result.2)

/-- `QuicClientEngine::connect`. -/
def connect (engine : QuicEngine) (atStart report : AdvTick) (connected : Bool) :
    QuicEngine × List Scheduled :=
  let first := engine.ensureStarted atStart
  if connected then
    let second := first.1.scheduleTick report
    (second.1, first.2 ++ second.2)
  else first

/-- `on_tick`. -/
def onTick (engine : QuicEngine) (result : WaitResult) (report : AdvTick) :
    QuicEngine × List Scheduled :=
  match result with
  | .aborted => (engine, [])
  | .expired => engine.scheduleTick report

/-- Every packet that is delivered and every connection attempt processes the engine first. -/
def step (engine : QuicEngine) : Input → Option (QuicEngine × List Scheduled)
  | .elapse duration => some ({ engine with now := engine.now + duration }, [])
  | .expire => (engine.tickTimer.expire engine.now).map fun tickTimer =>
    ({ engine with tickTimer }, [])
  | .onTick report => engine.tickTimer.dequeue.map fun taken =>
    onTick { engine with tickTimer := taken.2 } taken.1 report
  | .start report | .deliverPacket report =>
    if engine.role = .server then some (engine.scheduleTick report) else none
  | .connect atStart report connected =>
    if engine.role = .client then some (engine.connect atStart report connected) else none
  | .onPacket failed report =>
    if engine.role = .client then
      some (if failed then (engine, []) else engine.scheduleTick report)
    else none

/-! ## Each call of `schedule_tick` -/

/-- How a call of `schedule_tick` leaves the timer. -/
def Scheduled.Armed (call : Scheduled) : Prop :=
  call.timer.waits = 1 ∧ call.timer.expiry = call.now + 1000 * tickDelay call.report

theorem armed_scheduleTick (engine : QuicEngine) (report : AdvTick) :
    ∀ call ∈ (engine.scheduleTick report).2, call.Armed := by
  intro call called
  rw [List.mem_singleton.mp called]
  exact ⟨engine.tickTimer.waits_asyncWait_expiresAfter _ _,
    engine.tickTimer.expiry_asyncWait_expiresAfter _ _⟩

theorem armed_ensureStarted (engine : QuicEngine) (report : AdvTick) :
    ∀ call ∈ (engine.ensureStarted report).2, call.Armed := by
  unfold ensureStarted
  split
  · simp
  · exact armed_scheduleTick engine report

theorem armed_connect (engine : QuicEngine) (atStart report : AdvTick) (connected : Bool) :
    ∀ call ∈ (engine.connect atStart report connected).2, call.Armed := by
  unfold connect
  have first := armed_ensureStarted engine atStart
  split
  · exact List.forall_mem_append.mpr ⟨first, armed_scheduleTick _ report⟩
  · exact first

theorem armed_onTick (engine : QuicEngine) (result : WaitResult) (report : AdvTick) :
    ∀ call ∈ (engine.onTick result report).2, call.Armed := by
  cases result with
  | aborted => simp [onTick]
  | expired => exact armed_scheduleTick engine report

theorem armed_of_step {engine next : QuicEngine} {input : Input} {calls : List Scheduled}
    (stepped : engine.step input = some (next, calls)) : ∀ call ∈ calls, call.Armed := by
  cases input with
  | elapse duration =>
    cases stepped
    simp
  | expire =>
    rcases Option.map_eq_some_iff.mp stepped with ⟨timer, -, ⟨⟩⟩
    simp
  | onTick report =>
    rcases Option.map_eq_some_iff.mp stepped with ⟨taken, -, result⟩
    rw [← show _ = calls from congrArg Prod.snd result]
    exact armed_onTick _ _ report
  | start report | deliverPacket report =>
    rcases Option.ite_none_right_eq_some.mp stepped with ⟨-, ⟨⟩⟩
    exact armed_scheduleTick engine report
  | connect atStart report connected =>
    rcases Option.ite_none_right_eq_some.mp stepped with ⟨-, result⟩
    rw [← show _ = calls from congrArg Prod.snd (Option.some.inj result)]
    exact armed_connect engine atStart report connected
  | onPacket failed report =>
    rcases Option.ite_none_right_eq_some.mp stepped with ⟨-, result⟩
    cases failed with
    | true =>
      cases result
      simp
    | false =>
      cases result
      exact armed_scheduleTick engine report

/-! ## Ticks in time -/

/--
The timer expires when lsquic wants it to, `diff` microseconds from now or at once, or
within 500 ms if lsquic wants nothing.
-/
def Scheduled.OnTime (call : Scheduled) : Prop :=
  if call.report.next = 0 then call.timer.expiry ≤ call.now + 500000
  else (call.timer.expiry : ℤ) ≤ call.now + max call.report.diff 0

/-- The reports for which a delay in milliseconds is not longer than one in microseconds. -/
def Harmless (report : AdvTick) : Prop :=
  report.next = 0 ∨ report.diff ≤ 0 ∨ 500000 ≤ report.diff

/-- A difference of up to 500 is taken for milliseconds, and a larger one cut to 500. -/
theorem tickDelay_eq (report : AdvTick) :
    tickDelay report =
      if report.diff < 0 then 0
      else if report.next = 0 then 500
      else min report.diff.toNat 500 := by
  rcases report.isInt with ⟨-, small⟩
  unfold tickDelay
  split_ifs <;> omega

theorem onTime_iff_of_armed {call : Scheduled} (armed : call.Armed) :
    call.OnTime ↔ Harmless call.report := by
  have delay := tickDelay_eq call.report
  unfold Scheduled.OnTime Harmless
  rw [armed.2, delay]
  split_ifs <;> omega

/--
An engine ticks in time exactly as long as lsquic never asks for a tick in less than half
a second; one wait is outstanding in any case.
-/
theorem onTime_iff_harmless {role : EngineRole} {calls : List Scheduled} {engine : QuicEngine}
    (runs : Runs step anyInput { role } calls engine) :
    (∀ call ∈ calls, call.OnTime ∧ call.timer.waits = 1) ↔
      ∀ call ∈ calls, Harmless call.report := by
  have armed : ∀ call ∈ calls, call.Armed :=
    runs.forall_action fun _ stepped => armed_of_step stepped
  constructor
  · intro inTime call called
    rw [← onTime_iff_of_armed (armed call called)]
    exact (inTime call called).1
  · intro harmless call called
    have isArmed := armed call called
    exact ⟨(onTime_iff_of_armed isArmed).mpr (harmless call called), isArmed.1⟩

/-- No connection yet, and a packet that has to be dealt with at once. -/
def idleTick : AdvTick := ⟨0, 0, by decide⟩
/-- A tick that is 30 µs late. -/
def overdueTick : AdvTick := ⟨1, -30, by decide⟩

/-- An acknowledgement that is due in 25 ms. -/
def delayedAck : AdvTick := ⟨1, 25000, by decide⟩

theorem onTime_iff_harmless_server :
    ∃ calls engine,
      Runs step anyInput { role := .server } calls engine ∧
        calls.length = 2 ∧ ∀ call ∈ calls, call.OnTime ∧ call.timer.waits = 1 := by
  have reached : (run step (fun _ _ => true) { role := .server }
      [.start idleTick, .elapse 7, .deliverPacket overdueTick]).any (fun last =>
        decide (last.2.map Scheduled.report = [idleTick, overdueTick])) = true := by
    decide
  rcases exists_runs_any reached with ⟨calls, engine, runs, shows⟩
  have reports := shows
  refine ⟨calls, engine, runs, ?_, ?_⟩
  · simpa using congrArg List.length reports
  · apply (onTime_iff_harmless runs).mpr
    intro call called
    have report : call.report ∈ [idleTick, overdueTick] := by
      rw [← reports]
      exact List.mem_map_of_mem called
    simp only [List.mem_cons, List.not_mem_nil, or_false] at report
    rcases report with isIdle | isOverdue
    · rw [isIdle]
      exact .inl rfl
    · rw [isOverdue]
      exact .inr (.inl (by decide))

/-- The acknowledgement is due after 25 ms, and the engine wakes up after 500. -/
theorem ticks_late :
    ∃ calls engine, ∃ call ∈ calls,
      Runs step anyInput { role := .server } calls engine ∧
        call.report = delayedAck ∧ call.timer.expiry = call.now + 500000 ∧ ¬call.OnTime := by
  have reached : (run step (fun _ _ => true) { role := .server }
      [.start idleTick, .deliverPacket delayedAck]).any (fun last =>
        decide (∃ call ∈ last.2, call.report = delayedAck ∧
          call.timer.expiry = call.now + 500000)) = true := by
    decide
  rcases exists_runs_any reached with ⟨calls, engine, runs, call, called, isAck, expires⟩
  refine ⟨calls, engine, call, called, runs, isAck, expires, ?_⟩
  have due : call.report.next = 1 ∧ call.report.diff = 25000 := by
    rw [isAck]
    exact ⟨rfl, rfl⟩
  unfold Scheduled.OnTime
  rw [if_neg (by omega), expires]
  omega

end QuicEngine

end ReverseProxy
