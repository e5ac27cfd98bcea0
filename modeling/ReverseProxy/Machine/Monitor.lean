import ReverseProxy.Machine.Run

/-!
# Monitors

A monitor follows the trace of a machine in a state of its own, its view, and states a
condition on each action relative to the view of everything before it.  `Always` is that
condition along a trace; `Runs.monitored` is the induction that carries an invariant of
the view and the machine's state through a run.
-/

namespace Machine

variable {σ ε α ν : Type*}

/-- Every action meets the condition in the view of the actions before it. -/
def Always (watch : ν → α → ν) (check : ν → α → Prop) : ν → List α → Prop
  | _, [] => True
  | view, action :: later => check view action ∧ Always watch check (watch view action) later

variable {P : List α → α → Prop}

section Traces

variable {watch : ν → α → ν} {check : ν → α → Prop} {view : ν}

instance decidableAlways [∀ view action, Decidable (check view action)] :
    ∀ view trace, Decidable (Always watch check view trace)
  | _, [] => .isTrue trivial
  | view, action :: later =>
    have := decidableAlways (watch view action) later
    inferInstanceAs (Decidable (check view action ∧ _))

@[simp]
theorem always_nil : Always watch check view [] := trivial

@[simp]
theorem always_cons {action : α} {later : List α} :
    Always watch check view (action :: later) ↔
      check view action ∧ Always watch check (watch view action) later :=
  Iff.rfl

@[simp]
theorem always_append {first second : List α} :
    Always watch check view (first ++ second) ↔
      Always watch check view first ∧ Always watch check (first.foldl watch view) second := by
  induction first generalizing view with
  | nil => simp
  | cons action first ih => simp [ih, and_assoc]

theorem always_map {β : Type*} {f : β → α} {trace : List β} :
    Always watch check view (trace.map f) ↔
      Always (fun view entry => watch view (f entry)) (fun view entry => check view (f entry)) view
        trace := by
  induction trace generalizing view with
  | nil => exact Iff.rfl
  | cons entry trace ih => simp [ih]

/-- The condition along a trace, said of each position. -/
theorem always_iff_forall {trace : List α} :
    Always watch check view trace ↔
      ∀ before action after, trace = before ++ action :: after →
        check (before.foldl watch view) action := by
  constructor
  · rintro always before action after rfl
    rw [always_append] at always
    exact always.2.1
  · intro each
    induction trace generalizing view with
    | nil => exact trivial
    | cons action trace ih =>
      refine ⟨each [] action trace rfl, ih ?_⟩
      rintro before later after rfl
      exact each (action :: before) later after rfl

/-- A condition on each position of a list that is put together. -/
theorem forall_split_append_iff {first second : List α} :
    (∀ before action after, first ++ second = before ++ action :: after → P before action) ↔
      (∀ before action after, first = before ++ action :: after → P before action) ∧
        ∀ before action after, second = before ++ action :: after →
          P (first ++ before) action := by
  constructor
  · intro each
    constructor
    · rintro before action after rfl
      exact each before action (after ++ second) (by simp)
    · rintro before action after rfl
      exact each (first ++ before) action after (by simp)
  · rintro ⟨early, late⟩ before action after split
    rcases List.append_eq_append_iff.mp split with ⟨middle, rfl, isSecond⟩ |
      ⟨middle, rfl, isAfter⟩
    · exact late middle action after isSecond
    · cases middle with
      | nil =>
        have here := late [] action after (by simpa using isAfter.symm)
        simpa using here
      | cons first' middle =>
        cases isAfter
        exact early before action middle rfl

theorem forall_split_cons_iff {first : α} {rest : List α} :
    (∀ before action after, first :: rest = before ++ action :: after → P before action) ↔
      P [] first ∧
        ∀ before action after, rest = before ++ action :: after → P (first :: before) action := by
  constructor
  · intro each
    refine ⟨each [] first rest rfl, ?_⟩
    rintro before action after rfl
    exact each (first :: before) action after rfl
  · rintro ⟨here, later⟩ before action after split
    cases before with
    | nil =>
      cases split
      exact here
    | cons _ before =>
      cases split
      exact later before action after rfl

theorem forall_split_nil :
    ∀ before action after, [] = before ++ action :: after → P before action := by
  intro before action after split
  simp at split

end Traces

/-- Actions that meet the condition in every view and leave it as it is. -/
def Ignored (watch : ν → α → ν) (check : ν → α → Prop) (actions : List α) : Prop :=
  ∀ view, Always watch check view actions ∧ actions.foldl watch view = view

theorem Ignored.append {watch : ν → α → ν} {check : ν → α → Prop} {first second : List α}
    (ignored : Ignored watch check first) (ignored' : Ignored watch check second) :
    Ignored watch check (first ++ second) := by
  intro view
  rw [always_append, List.foldl_append, (ignored view).2]
  exact ⟨⟨(ignored view).1, (ignored' view).1⟩, (ignored' view).2⟩

/-- A machine together with the view of what it has done. -/
def watched (step : Step σ ε α) (watch : ν → α → ν) : Step (σ × ν) ε α := fun current input =>
  (step current.1 input).map fun result =>
    ((result.1, result.2.foldl watch current.2), result.2)

/-- An invariant of view and state that makes every step pass the monitor, along a run. -/
theorem Runs.monitored {step : Step σ ε α} {allowed : σ → ε → Prop} {start state : σ}
    {trace : List α} {watch : ν → α → ν} {check : ν → α → Prop} {view : ν} {Inv : ν → σ → Prop}
    (initial : Inv view start)
    (kept : ∀ {view state input next actions}, Inv view state → allowed state input →
      step state input = some (next, actions) →
        Always watch check view actions ∧ Inv (actions.foldl watch view) next)
    (runs : Runs step allowed start trace state) :
    Always watch check view trace ∧ Inv (trace.foldl watch view) state := by
  induction runs with
  | refl => exact ⟨trivial, initial⟩
  | snoc _ allowedHere stepped ih =>
    rcases kept ih.2 allowedHere stepped with ⟨passes, invariant⟩
    rw [List.foldl_append]
    exact ⟨always_append.mpr ⟨ih.1, passes⟩, invariant⟩

/-- The invariant rule for a condition on each action and on what has been done before it. -/
theorem Runs.forall_split {step : Step σ ε α} {allowed : σ → ε → Prop} {start state : σ}
    {trace : List α} {Inv : List α → σ → Prop} (initial : Inv [] start)
    (kept : ∀ {trace state input next actions}, Inv trace state → allowed state input →
      step state input = some (next, actions) →
        (∀ before action after, actions = before ++ action :: after →
          P (trace ++ before) action) ∧ Inv (trace ++ actions) next)
    (runs : Runs step allowed start trace state) :
    (∀ before action after, trace = before ++ action :: after → P before action) ∧
      Inv trace state := by
  induction runs with
  | refl => exact ⟨forall_split_nil, initial⟩
  | snoc _ allowedHere stepped ih =>
    rcases kept ih.2 allowedHere stepped with ⟨passes, invariant⟩
    exact ⟨forall_split_append_iff.mpr ⟨ih.1, passes⟩, invariant⟩

/-- The invariant rule for runs whose steps are allowed according to the view. -/
theorem Runs.monitored_of_watched {step : Step σ ε α} {watch : ν → α → ν}
    {allowed : σ × ν → ε → Prop} {start : σ} {last : σ × ν} {trace : List α}
    {check : ν → α → Prop} {view : ν} {Inv : ν → σ → Prop} (initial : Inv view start)
    (kept : ∀ {view state input next actions}, Inv view state → allowed (state, view) input →
      step state input = some (next, actions) →
        Always watch check view actions ∧ Inv (actions.foldl watch view) next)
    (runs : Runs (watched step watch) allowed (start, view) trace last) :
    Always watch check view trace ∧ Inv (trace.foldl watch view) last.1 := by
  have both : (Always watch check view trace ∧ Inv (trace.foldl watch view) last.1) ∧
      last.2 = trace.foldl watch view := by
    induction runs with
    | refl => exact ⟨⟨trivial, initial⟩, rfl⟩
    | snoc _ allowedHere stepped ih =>
      simp only [watched, Option.map_eq_some_iff, Prod.mk.injEq] at stepped
      rcases stepped with ⟨⟨next, actions⟩, taken, rfl, rfl⟩
      rcases ih with ⟨⟨passed, invariant⟩, isView⟩
      rw [← isView] at invariant
      rcases kept invariant allowedHere taken with ⟨passes, kept⟩
      rw [List.foldl_append, ← isView]
      refine ⟨⟨always_append.mpr ⟨passed, ?_⟩, kept⟩, rfl⟩
      rw [← isView]
      exact passes
  exact both.1

end Machine
