import ReverseProxy.Machine.Run

/-!
# Progress

A weight that every step pays for bounds what a run can do.
-/

namespace Machine

variable {σ ε α : Type*} {step : Step σ ε α} {allowed : σ → ε → Prop} {start state : σ}

/-- What the inputs of a logged run cost together. -/
def spent (cost : σ → ε → ℕ) : List (Transition σ ε α) → ℕ
  | [] => 0
  | taken :: later => cost taken.source taken.input + spent cost later

end Machine
