import Mathlib.Logic.Relation

/-! State machines given by a partial step function, their runs, and runs in
which every step meets a condition on the action and on the state before it. -/

namespace TronForge.Library

/-- `step action state` is the next state; nothing if the action cannot happen. -/
structure Machine (State Action : Type) where
  step : Action → State → Option State

namespace Machine

variable {State Action : Type} (machine : Machine State Action)

/-- A run all of whose steps are allowed. -/
def Run (allowed : State → Action → Prop) : State → State → Prop :=
  Relation.ReflTransGen fun before after =>
    ∃ action, allowed before action ∧ machine.step action before = some after

/-- Every action is allowed. -/
def anyAction : State → Action → Prop := fun _ _ => True

instance (state : State) (action : Action) : Decidable (anyAction state action) :=
  inferInstanceAs (Decidable True)

variable {machine} {allowed : State → Action → Prop} {valid : State → Prop} {start final : State}

/-- What every allowed step keeps, every allowed run keeps. -/
theorem Run.invariant (run : machine.Run allowed start final)
    (kept : ∀ before action after, valid before → allowed before action →
      machine.step action before = some after → valid after)
    (initial : valid start) : valid final := by
  induction run with
  | refl => exact initial
  | tail _ step ih =>
    obtain ⟨action, permitted, stepped⟩ := step
    exact kept _ action _ ih permitted stepped

theorem Run.weaken {wider : State → Action → Prop} (run : machine.Run allowed start final)
    (implies : ∀ state action, allowed state action → wider state action) :
    machine.Run wider start final := by
  induction run with
  | refl => exact .refl
  | tail _ step ih =>
    obtain ⟨action, permitted, stepped⟩ := step
    exact ih.tail ⟨action, implies _ _ permitted, stepped⟩

variable (machine) (allowed)

/-- Play a list of allowed actions. -/
def replay [∀ state action, Decidable (allowed state action)] : List Action → State → Option State
  | [], state => some state
  | action :: rest, state =>
    if allowed state action then (machine.step action state).bind (replay rest) else none

variable {machine} {allowed}

/-- Actions that play to their end are a run. -/
theorem replay_run [∀ state action, Decidable (allowed state action)] (actions : List Action)
    (played : machine.replay allowed actions start = some final) :
    machine.Run allowed start final := by
  induction actions generalizing start with
  | nil =>
    cases played
    exact .refl
  | cons action rest ih =>
    by_cases permitted : allowed start action
    · simp only [replay, permitted, ↓reduceIte] at played
      obtain ⟨middle, stepped, remaining⟩ := Option.bind_eq_some_iff.mp played
      exact (ih remaining).head ⟨action, permitted, stepped⟩
    · simp [replay, permitted] at played

end Machine

end TronForge.Library
