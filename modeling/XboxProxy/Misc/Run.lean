import Mathlib.Data.List.Basic
import Mathlib.Data.List.Infix

/-!
# Runs of a partial step function

A concurrent component is a state together with a partial step function
`step : State → Action → Option State`: an action carries every choice the
environment makes (which task moves, what it reads), and `none` says that the
action is not enabled. A run is the fold of a list of actions, so every
interleaving is a list. `Along` and `AlongSteps` say that a property holds in
every state, or at every step, of a run; the rules below reduce both to one step.
-/

namespace XboxProxy.Misc

variable {State Action : Type}

/-- The state after a list of actions, if every one of them is enabled. -/
def run (step : State → Action → Option State) : State → List Action → Option State
  | s, [] => some s
  | s, a :: as => (step s a).bind fun t => run step t as

/-- `P` holds in every state the run passes through, the first and the last included. -/
def Along (step : State → Action → Option State) (P : State → Prop) :
    State → List Action → Prop
  | s, [] => P s
  | s, a :: as => P s ∧ ∀ t, step s a = some t → Along step P t as

/-- `ok` holds of every step of the run, read in the state before the step. -/
def AlongSteps (step : State → Action → Option State) (ok : State → Action → Prop) :
    State → List Action → Prop
  | _, [] => True
  | s, a :: as => ok s a ∧ ∀ t, step s a = some t → AlongSteps step ok t as

variable {step : State → Action → Option State}

@[simp] theorem run_nil (s : State) : run step s [] = some s := rfl

@[simp] theorem run_cons (s : State) (a : Action) (as : List Action) :
    run step s (a :: as) = (step s a).bind fun t => run step t as := rfl

theorem run_cons_eq_some {s u : State} {a : Action} {as : List Action} :
    run step s (a :: as) = some u ↔ ∃ t, step s a = some t ∧ run step t as = some u := by
  simp [Option.bind_eq_some_iff]

theorem run_append (s : State) (as bs : List Action) :
    run step s (as ++ bs) = (run step s as).bind fun t => run step t bs := by
  induction as generalizing s with
  | nil => rfl
  | cons a as ih => simp only [List.cons_append, run_cons, Option.bind_assoc, ih]

theorem run_snoc_eq_some {s u : State} {a : Action} {as : List Action} :
    run step s (as ++ [a]) = some u ↔ ∃ t, run step s as = some t ∧ step t a = some u := by
  simp [run_append, Option.bind_eq_some_iff]

/-- The simulation rule: what each step does to the concrete state, a step with the image of its
action does to the abstract one, and so do runs. -/
theorem run_of_simulates {State' Action' : Type} {step' : State' → Action' → Option State'}
    {abstr : State → State'} {image : Action → Action'}
    (simulates : ∀ s a t, step s a = some t → step' (abstr s) (image a) = some (abstr t))
    {s t : State} {as : List Action} (reached : run step s as = some t) :
    run step' (abstr s) (as.map image) = some (abstr t) := by
  induction as generalizing s with
  | nil =>
    obtain rfl : s = t := by simpa using reached
    rfl
  | cons a as ih =>
    obtain ⟨u, stepped, rest⟩ := run_cons_eq_some.mp reached
    rw [List.map_cons, run_cons_eq_some]
    exact ⟨abstr u, simulates s a u stepped, ih rest⟩

/-- The invariant rule for runs whose steps all meet a condition. -/
theorem run_invariant_of_alongSteps {Inv : State → Prop} {ok : State → Action → Prop}
    (preserved : ∀ s a t, Inv s → ok s a → step s a = some t → Inv t)
    {s t : State} {as : List Action} (start : Inv s) (allowed : AlongSteps step ok s as)
    (reached : run step s as = some t) : Inv t := by
  induction as generalizing s with
  | nil =>
    obtain rfl : s = t := by simpa using reached
    exact start
  | cons a as ih =>
    obtain ⟨u, stepped, rest⟩ := run_cons_eq_some.mp reached
    exact ih (preserved s a u start allowed.1 stepped) (allowed.2 u stepped) rest

/-- The invariant rule for all runs. -/
theorem run_invariant {Inv : State → Prop}
    (preserved : ∀ s a t, Inv s → step s a = some t → Inv t) {s t : State} {as : List Action}
    (start : Inv s) (reached : run step s as = some t) : Inv t := by
  have allowed : ∀ (s : State) (as : List Action), AlongSteps step (fun _ _ => True) s as := by
    intro s as
    induction as generalizing s with
    | nil => trivial
    | cons a as ih => exact ⟨trivial, fun t _ => ih t⟩
  exact run_invariant_of_alongSteps (fun s a t inv _ stepped => preserved s a t inv stepped) start
    (allowed s as) reached

/-- The invariant rule for runs of actions that all meet a condition. -/
theorem run_invariant_of_forall {Inv : State → Prop} {ok : Action → Prop}
    (preserved : ∀ s a t, Inv s → ok a → step s a = some t → Inv t) {s t : State}
    {as : List Action} (start : Inv s) (all : ∀ a ∈ as, ok a) (reached : run step s as = some t) :
    Inv t := by
  induction as generalizing s with
  | nil =>
    obtain rfl : s = t := by simpa using reached
    exact start
  | cons a as ih =>
    obtain ⟨u, stepped, rest⟩ := run_cons_eq_some.mp reached
    exact ih (preserved s a u start (all a List.mem_cons_self) stepped)
      (fun b member => all b (List.mem_cons_of_mem a member)) rest

theorem Along.head {P : State → Prop} {s : State} {as : List Action}
    (along : Along step P s as) : P s := by
  cases as with
  | nil => exact along
  | cons a as => exact along.1

/-- If every step taken inside the invariant keeps `P` exactly when it meets `ok`, then a
run keeps `P` throughout exactly when all of its steps meet `ok`. -/
theorem along_iff_alongSteps {Inv P : State → Prop} {ok : State → Action → Prop}
    (preserved : ∀ s a t, Inv s → step s a = some t → Inv t)
    (exact_step : ∀ s a t, Inv s → P s → step s a = some t → (P t ↔ ok s a))
    {s t : State} {as : List Action} (inv : Inv s) (start : P s)
    (reached : run step s as = some t) : Along step P s as ↔ AlongSteps step ok s as := by
  induction as generalizing s with
  | nil => exact ⟨fun _ => trivial, fun _ => start⟩
  | cons a as ih =>
    obtain ⟨u, stepped, rest⟩ := run_cons_eq_some.mp reached
    have same : ∀ v, step s a = some v → v = u := fun v h => by
      simpa [stepped] using h.symm
    have one := exact_step s a u inv start stepped
    have later := fun keeps : P u => ih (preserved s a u inv stepped) keeps rest
    constructor
    · rintro ⟨-, along⟩
      have keeps : P u := (along u stepped).head
      refine ⟨one.mp keeps, fun v h => ?_⟩
      rw [same v h]
      exact (later keeps).mp (along u stepped)
    · rintro ⟨allowed, steps⟩
      have keeps : P u := one.mpr allowed
      refine ⟨start, fun v h => ?_⟩
      rw [same v h]
      exact (later keeps).mpr (steps u stepped)

/-- What every step taken inside `P` satisfies holds at all the steps of a run that keeps `P`. -/
theorem alongSteps_of_along {P : State → Prop} {ok : State → Action → Prop}
    (one_step : ∀ s a t, P s → step s a = some t → ok s a) {s t : State} {as : List Action}
    (along : Along step P s as) (reached : run step s as = some t) : AlongSteps step ok s as := by
  induction as generalizing s with
  | nil => trivial
  | cons a as ih =>
    obtain ⟨u, stepped, rest⟩ := run_cons_eq_some.mp reached
    refine ⟨one_step s a u along.1 stepped, fun v h => ?_⟩
    obtain rfl : u = v := by simpa [stepped] using h
    exact ih (along.2 u stepped) rest

/-- A condition on steps can be checked along a given run. -/
instance decidableAlongSteps {ok : State → Action → Prop} [∀ s a, Decidable (ok s a)] :
    (s : State) → (as : List Action) → Decidable (AlongSteps step ok s as)
  | _, [] => .isTrue trivial
  | s, a :: as =>
    match h : step s a with
    | none => decidable_of_iff (ok s a) (by simp [AlongSteps, h])
    | some t =>
      have : Decidable (AlongSteps step ok t as) := decidableAlongSteps t as
      decidable_of_iff (ok s a ∧ AlongSteps step ok t as) (by simp [AlongSteps, h])

end XboxProxy.Misc
