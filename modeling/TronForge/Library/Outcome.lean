import Mathlib.Data.List.Forall2

/-! Computations that return a value or an error. -/

namespace TronForge.Library

section
variable {Error Input Output : Type}

/-- A sequence of computations that returned: both did. -/
theorem bind_eq_ok {first : Except Error Input} {next : Input → Except Error Output} {result : Output}
    (returned : first >>= next = .ok result) : ∃ value, first = .ok value ∧ next value = .ok result := by
  cases first with
  | error error => cases returned
  | ok value => exact ⟨value, rfl, returned⟩

theorem ok_bind (value : Input) (next : Input → Except Error Output) : (Except.ok value >>= next) = next value := rfl

theorem pure_ok (value : Input) : (pure value : Except Error Input) = .ok value := rfl

theorem map_eq_ok {first : Except Error Input} {change : Input → Output} {result : Output}
    (returned : first.map change = .ok result) : ∃ value, first = .ok value ∧ result = change value := by
  cases first with
  | error error => cases returned
  | ok value =>
    cases returned
    exact ⟨value, rfl, rfl⟩

/-- A computation that returns for every input returns for all of them. -/
theorem mapM_forall₂ {run : Input → Except Error Output} {Good : Input → Output → Prop} {inputs : List Input}
    (good : ∀ input ∈ inputs, ∃ output, run input = .ok output ∧ Good input output) :
    ∃ outputs, inputs.mapM run = .ok outputs ∧ List.Forall₂ Good inputs outputs := by
  induction inputs with
  | nil => exact ⟨[], rfl, .nil⟩
  | cons input rest hypothesis =>
    obtain ⟨output, first, isGood⟩ := good input List.mem_cons_self
    obtain ⟨outputs, others, areGood⟩ :=
      hypothesis fun other member => good other (List.mem_cons_of_mem _ member)
    refine ⟨output :: outputs, ?_, .cons isGood areGood⟩
    rw [List.mapM_cons, first]
    simp only [bind, Except.bind, others]
    rfl

/-- A computation that returned for all of them returned for each. -/
theorem mapM_eq_ok {run : Input → Except Error Output} {inputs : List Input} {outputs : List Output}
    (returned : inputs.mapM run = .ok outputs) :
    List.Forall₂ (fun input output => run input = .ok output) inputs outputs := by
  induction inputs generalizing outputs with
  | nil =>
    cases returned
    exact .nil
  | cons input rest hypothesis =>
    rw [List.mapM_cons] at returned
    obtain ⟨output, first, returned⟩ := bind_eq_ok returned
    obtain ⟨others, tail, returned⟩ := bind_eq_ok returned
    cases returned
    exact .cons first (hypothesis tail)

/-- Every input has its output, and every output its input. -/
theorem forall₂_covers {Good : Input → Output → Prop} {inputs : List Input}
    {outputs : List Output} (good : List.Forall₂ Good inputs outputs) :
    (∀ input ∈ inputs, ∃ output ∈ outputs, Good input output) ∧
      ∀ output ∈ outputs, ∃ input ∈ inputs, Good input output := by
  induction good with
  | nil => simp
  | cons isGood _ hypothesis =>
    obtain ⟨covers, comes⟩ := hypothesis
    constructor
    · intro input member
      cases member with
      | head => exact ⟨_, List.mem_cons_self, isGood⟩
      | tail _ old =>
        obtain ⟨output, present, areGood⟩ := covers input old
        exact ⟨output, List.mem_cons_of_mem _ present, areGood⟩
    · intro output member
      cases member with
      | head => exact ⟨_, List.mem_cons_self, isGood⟩
      | tail _ old =>
        obtain ⟨input, present, areGood⟩ := comes output old
        exact ⟨input, List.mem_cons_of_mem _ present, areGood⟩

end

end TronForge.Library
