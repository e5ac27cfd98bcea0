import Mathlib.Data.List.Basic

/-!
# Runs of a machine

A machine takes inputs one at a time; each input leads to a next state and a list of
actions, or is impossible in the current state.  `Runs` collects the actions of the
runs all of whose inputs are allowed where they are taken, and `Runs.invariant` is the
induction over such runs.  `run` executes a list of inputs.
-/

namespace Machine

variable {σ ε α : Type*}

/-- The state after an input and the actions taken on the way, `none` for an impossible input. -/
abbrev Step (σ ε α : Type*) := σ → ε → Option (σ × List α)

/-- The runs of a machine from a state, with everything they did, under a condition on each step. -/
inductive Runs (step : Step σ ε α) (allowed : σ → ε → Prop) (start : σ) : List α → σ → Prop where
  | refl : Runs step allowed start [] start
  | snoc {trace : List α} {state next : σ} {input : ε} {actions : List α} :
      Runs step allowed start trace state → allowed state input →
        step state input = some (next, actions) → Runs step allowed start (trace ++ actions) next

/-- The condition of runs that are not restricted. -/
def anyInput (_ : σ) (_ : ε) : Prop := True

variable {step : Step σ ε α} {allowed : σ → ε → Prop} {start state : σ} {trace : List α}

/-- What holds at the start and is kept by every allowed step holds in every run. -/
theorem Runs.invariant {Inv : List α → σ → Prop} (initial : Inv [] start)
    (kept : ∀ {trace state input next actions}, Inv trace state → allowed state input →
      step state input = some (next, actions) → Inv (trace ++ actions) next)
    (runs : Runs step allowed start trace state) : Inv trace state := by
  induction runs with
  | refl => exact initial
  | snoc _ allowedHere stepped ih => exact kept ih allowedHere stepped

theorem Runs.state_invariant {Inv : σ → Prop} (initial : Inv start)
    (kept : ∀ {state input next actions}, Inv state → allowed state input →
      step state input = some (next, actions) → Inv next)
    (runs : Runs step allowed start trace state) : Inv state := by
  induction runs with
  | refl => exact initial
  | snoc _ allowedHere stepped ih => exact kept ih allowedHere stepped

/-- The invariant rule for a property of the state and a property of each action. -/
theorem Runs.forall_mem {P : α → Prop} {Inv : σ → Prop} (initial : Inv start)
    (kept : ∀ {state input next actions}, Inv state → allowed state input →
      step state input = some (next, actions) → (∀ action ∈ actions, P action) ∧ Inv next)
    (runs : Runs step allowed start trace state) : (∀ action ∈ trace, P action) ∧ Inv state := by
  apply Runs.invariant ?_ ?_ runs
  · exact ⟨by simp, initial⟩
  · rintro trace state input next actions ⟨each, invariant⟩ allowedHere stepped
    rcases kept invariant allowedHere stepped with ⟨eachNew, invariant⟩
    exact ⟨List.forall_mem_append.mpr ⟨each, eachNew⟩, invariant⟩

theorem Runs.forall_action {P : α → Prop}
    (each : ∀ {state input next actions}, allowed state input →
      step state input = some (next, actions) → ∀ action ∈ actions, P action)
    (runs : Runs step allowed start trace state) : ∀ action ∈ trace, P action := by
  apply Runs.invariant ?_ ?_ runs
  · simp
  · intro trace state input next actions old allowedHere stepped
    exact List.forall_mem_append.mpr ⟨old, each allowedHere stepped⟩

/-- Executes the inputs in order, as long as each is possible and passes the check. -/
def run (step : Step σ ε α) (check : σ → ε → Bool) : σ → List ε → Option (σ × List α)
  | state, [] => some (state, [])
  | state, input :: later =>
    if check state input then
      match step state input with
      | none => none
      | some (next, actions) =>
        (run step check next later).map fun result => (result.1, actions ++ result.2)
    else none

/-- A machine that records each input with what it did. -/
def recorded (step : Step σ ε α) : Step σ ε (ε × List α) := fun state input =>
  (step state input).map fun result => (result.1, [(input, result.2)])

theorem recorded_eq_some_iff {next : σ} {input : ε} {records : List (ε × List α)} :
    recorded step state input = some (next, records) ↔
      ∃ actions, step state input = some (next, actions) ∧ records = [(input, actions)] := by
  rw [recorded, Option.map_eq_some_iff]
  constructor
  · rintro ⟨⟨_, actions⟩, taken, ⟨⟩⟩
    exact ⟨actions, taken, rfl⟩
  · rintro ⟨actions, taken, rfl⟩
    exact ⟨(next, actions), taken, rfl⟩

/-- A machine whose state carries what the run did so far. -/
def logging (step : Step σ ε α) : Step (σ × List α) ε α := fun state input =>
  (step state.1 input).map fun result => ((result.1, state.2 ++ result.2), result.2)

theorem logging_eq_some_iff {start next : σ × List α} {input : ε} {actions : List α} :
    logging step start input = some (next, actions) ↔
      step start.1 input = some (next.1, actions) ∧ next.2 = start.2 ++ actions := by
  rw [logging, Option.map_eq_some_iff]
  constructor
  · rintro ⟨⟨_, _⟩, taken, ⟨⟩⟩
    exact ⟨taken, rfl⟩
  · rcases next with ⟨target, log⟩
    rintro ⟨taken, rfl⟩
    exact ⟨(target, actions), taken, rfl⟩

/-- One transition of a machine. -/
structure Transition (σ ε α : Type*) where
  source : σ
  input : ε
  actions : List α
  target : σ

/-- A machine that records its transitions. -/
def logged (step : Step σ ε α) : Step σ ε (Transition σ ε α) := fun state input =>
  (step state input).map fun result => (result.1, [⟨state, input, result.2, result.1⟩])

theorem logged_eq_some_iff {next : σ} {input : ε} {log : List (Transition σ ε α)} :
    logged step state input = some (next, log) ↔
      ∃ actions, step state input = some (next, actions) ∧ log = [⟨state, input, actions, next⟩] := by
  rw [logged, Option.map_eq_some_iff]
  constructor
  · rintro ⟨⟨_, actions⟩, taken, ⟨⟩⟩
    exact ⟨actions, taken, rfl⟩
  · rintro ⟨actions, taken, rfl⟩
    exact ⟨(next, actions), taken, rfl⟩

/-- A logged run passes through the source of each of its transitions, and takes it. -/
theorem Runs.before_logged {log before after : List (Transition σ ε α)} {t : Transition σ ε α}
    (runs : Runs (logged step) allowed start log state) (split : log = before ++ t :: after) :
    Runs (logged step) allowed start before t.source ∧
      step t.source t.input = some (t.target, t.actions) := by
  induction runs generalizing after with
  | refl => simp at split
  | snoc runs allowedHere stepped ih =>
    rcases logged_eq_some_iff.mp stepped with ⟨actions, taken, rfl⟩
    rcases List.eq_nil_or_concat after with rfl | ⟨later, last, rfl⟩
    · rcases List.append_inj' split rfl with ⟨rfl, isLast⟩
      simp only [List.cons.injEq, and_true] at isLast
      subst isLast
      exact ⟨runs, taken⟩
    · rw [List.concat_eq_append, ← List.cons_append, ← List.append_assoc] at split
      exact ih (List.append_inj' split rfl).1

/-- A logged run all of whose transitions meet a condition is a run under that condition. -/
theorem Runs.restrict {Meets : σ → ε → Prop} {log : List (Transition σ ε α)}
    (runs : Runs (logged step) allowed start log state)
    (each : ∀ t ∈ log, Meets t.source t.input) : Runs (logged step) Meets start log state := by
  induction runs with
  | refl => exact .refl
  | snoc runs _ stepped ih =>
    rcases logged_eq_some_iff.mp stepped with ⟨actions, taken, rfl⟩
    rw [List.forall_mem_append, List.forall_mem_singleton] at each
    exact .snoc (ih each.1) each.2 stepped

theorem Runs.cons {next : σ} {input : ε} {actions : List α}
    (allowedHere : allowed start input) (stepped : step start input = some (next, actions))
    (runs : Runs step allowed next trace state) :
    Runs step allowed start (actions ++ trace) state := by
  induction runs with
  | refl =>
    have first := Runs.snoc Runs.refl allowedHere stepped
    simpa using first
  | snoc _ allowedThere stepped ih =>
    rw [← List.append_assoc]
    exact .snoc ih allowedThere stepped

theorem runs_of_run {check : σ → ε → Bool}
    (sound : ∀ state input, check state input = true → allowed state input) {inputs : List ε}
    (ran : run step check start inputs = some (state, trace)) :
    Runs step allowed start trace state := by
  induction inputs generalizing start trace with
  | nil =>
    simp only [run, Option.some.injEq, Prod.mk.injEq] at ran
    rcases ran with ⟨rfl, rfl⟩
    exact .refl
  | cons input later ih =>
    simp only [run] at ran
    split at ran
    · rename_i checked
      split at ran
      · simp at ran
      · rename_i next actions stepped
        simp only [Option.map_eq_some_iff, Prod.mk.injEq] at ran
        rcases ran with ⟨⟨last, rest⟩, ranRest, rfl, rfl⟩
        exact .cons (sound _ _ checked) stepped (ih ranRest)
    · simp at ran

/-- What the execution of a list of inputs shows about its end is shown about a run. -/
theorem exists_runs_of_run [∀ state input, Decidable (allowed state input)] {inputs : List ε}
    {Good : σ × List α → Prop} [DecidablePred Good]
    (ran : (run step (fun state input => decide (allowed state input)) start inputs).any
      (fun last => decide (Good last)) = true) :
    ∃ trace state, Runs step allowed start trace state ∧ Good (state, trace) := by
  rcases (Option.any_eq_true_iff_get _ _).mp ran with ⟨isSome, holds⟩
  refine ⟨_, _, runs_of_run ?_ (Option.eq_some_of_isSome isSome), of_decide_eq_true holds⟩
  exact fun _ _ => of_decide_eq_true

theorem exists_runs_any {inputs : List ε} {Good : σ × List α → Prop} [DecidablePred Good]
    (ran : (run step (fun _ _ => true) start inputs).any (fun last => decide (Good last)) = true) :
    ∃ trace state, Runs step anyInput start trace state ∧ Good (state, trace) := by
  rcases (Option.any_eq_true_iff_get _ _).mp ran with ⟨isSome, holds⟩
  refine ⟨_, _, runs_of_run ?_ (Option.eq_some_of_isSome isSome), of_decide_eq_true holds⟩
  exact fun _ _ _ => trivial

end Machine
