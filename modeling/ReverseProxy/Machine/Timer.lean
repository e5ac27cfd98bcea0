import Mathlib.Data.List.Basic

/-!
# A timer with waits

A timer in the manner of asio: several waits may be outstanding on it, setting a new
expiry aborts them, and a wait that has completed leaves a handler in the queue of the
event loop.  A handler in the queue runs in any case, with the result its wait had.
-/

namespace Machine

/-- How a wait ends. -/
inductive WaitResult where
  | expired
  | aborted
  deriving DecidableEq, Repr

/-- A timer. -/
structure Timer where
  expiry : ℕ := 0
  /-- The number of waits that have not completed. -/
  waits : ℕ := 0
  /-- The handlers of the waits that have, oldest first. -/
  queued : List WaitResult := []
  deriving DecidableEq, Repr

namespace Timer

/-- `expires_after`. -/
def expiresAfter (timer : Timer) (now duration : ℕ) : Timer where
  expiry := now + duration
  waits := 0
  queued := timer.queued ++ List.replicate timer.waits .aborted

/-- `async_wait`. -/
def asyncWait (timer : Timer) : Timer :=
  { timer with waits := timer.waits + 1 }

/-- The outstanding waits complete, once the expiry has come. -/
def expire (timer : Timer) (now : ℕ) : Option Timer :=
  if timer.expiry ≤ now ∧ 0 < timer.waits then
    some { timer with waits := 0, queued := timer.queued ++ List.replicate timer.waits .expired }
  else none

/-- The oldest handler leaves the queue. -/
def dequeue (timer : Timer) : Option (WaitResult × Timer) :=
  timer.queued.head?.map fun result => (result, { timer with queued := timer.queued.tail })

@[simp]
theorem waits_asyncWait_expiresAfter (timer : Timer) (now duration : ℕ) :
    (timer.expiresAfter now duration).asyncWait.waits = 1 := rfl

@[simp]
theorem expiry_asyncWait_expiresAfter (timer : Timer) (now duration : ℕ) :
    (timer.expiresAfter now duration).asyncWait.expiry = now + duration := rfl

end Timer

end Machine
