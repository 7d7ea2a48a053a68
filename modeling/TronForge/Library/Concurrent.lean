import TronForge.Library.Program
import TronForge.Library.Table

/-! Programs side by side in one world. Each thread may rely on what the others promise to
leave alone, so that what it knows stays true until it is answered. -/

namespace TronForge.Library

variable {I : Interface} {Error α β World : Type}

namespace Environment

/-- Every call keeps `valid` and the promise to the others. -/
def Keeps (env : Environment I Error World) (valid : World → Prop) (promise : World → World → Prop) :
    Program I Error α → World → Prop
  | .done _, _ => True
  | .raise _, _ => True
  | .call operation next, world =>
    ∀ current, env.Later world current → valid current →
      ∀ reply after, env.performs current operation reply after →
        valid after ∧ promise current after ∧ env.Keeps valid promise (next reply) after

variable {env : Environment I Error World} {valid : World → Prop} {promise : World → World → Prop}

/-- The rule for one call: facts others cannot change are available when the call is answered. -/
theorem Keeps.call {world : World} {operation : I.Operation}
    {next : Except Error (I.Reply operation) → Program I Error α} (knows : World → Prop)
    (stable : ∀ before after, knows before → env.interferes before after → knows after) (known : knows world)
    (answer : ∀ current reply after, knows current → valid current → env.performs current operation reply after →
      valid after ∧ promise current after ∧ env.Keeps valid promise (next reply) after) :
    env.Keeps valid promise (.call operation next) world := by
  intro current later kept reply after performed
  exact answer current reply after (later.remembers knows stable known) kept performed

theorem Keeps.later {program : Program I Error α} {world after : World} (keeps : env.Keeps valid promise program world)
    (step : env.interferes world after) : env.Keeps valid promise program after := by
  cases program with
  | done value => trivial
  | raise error => trivial
  | call operation next =>
    intro current later
    exact keeps current (later.head step)

/-- As `Keeps`, and what the program ends with, a value or an exception, satisfies `post`. -/
def Assures (env : Environment I Error World) (valid : World → Prop) (promise : World → World → Prop)
    (post : Except Error α → World → Prop) : Program I Error α → World → Prop
  | .done value, world => post (.ok value) world
  | .raise error, world => post (.error error) world
  | .call operation next, world =>
    ∀ current, env.Later world current → valid current →
      ∀ reply after, env.performs current operation reply after →
        valid after ∧ promise current after ∧ env.Assures valid promise post (next reply) after

theorem Assures.keeps {post : Except Error α → World → Prop} {program : Program I Error α} {world : World}
    (assures : env.Assures valid promise post program world) : env.Keeps valid promise program world := by
  induction program generalizing world with
  | done value => trivial
  | raise error => trivial
  | call operation next hypothesis =>
    intro current later kept reply after performed
    obtain ⟨keptAfter, promised, remaining⟩ := assures current later kept reply after performed
    exact ⟨keptAfter, promised, hypothesis reply remaining⟩

theorem Assures.weaken {first post : Except Error α → World → Prop} {program : Program I Error α} {world : World}
    (assures : env.Assures valid promise first program world)
    (implies : ∀ outcome current, first outcome current → post outcome current) :
    env.Assures valid promise post program world := by
  induction program generalizing world with
  | done value => exact implies _ _ assures
  | raise error => exact implies _ _ assures
  | call operation next hypothesis =>
    intro current later kept reply after performed
    obtain ⟨keptAfter, promised, remaining⟩ := assures current later kept reply after performed
    exact ⟨keptAfter, promised, hypothesis reply remaining⟩

theorem Assures.bind {first : Except Error α → World → Prop} {post : Except Error β → World → Prop}
    {program : Program I Error α} {rest : α → Program I Error β} {world : World}
    (assures : env.Assures valid promise first program world)
    (resume : ∀ value current, first (.ok value) current → env.Assures valid promise post (rest value) current)
    (fail : ∀ error current, first (.error error) current → post (.error error) current) :
    env.Assures valid promise post (program >>= rest) world := by
  induction program generalizing world with
  | done value => exact resume value world assures
  | raise error => exact fail error world assures
  | call operation next hypothesis =>
    intro current later kept reply after performed
    obtain ⟨keptAfter, promised, remaining⟩ := assures current later kept reply after performed
    exact ⟨keptAfter, promised, hypothesis reply remaining⟩

theorem Assures.attempt {first : Except Error α → World → Prop} {post : Except Error (Except Error α) → World → Prop}
    {program : Program I Error α} {world : World} (assures : env.Assures valid promise first program world)
    (implies : ∀ outcome current, first outcome current → post (.ok outcome) current) :
    env.Assures valid promise post program.attempt world := by
  induction program generalizing world with
  | done value => exact implies _ _ assures
  | raise error => exact implies _ _ assures
  | call operation next hypothesis =>
    intro current later kept reply after performed
    obtain ⟨keptAfter, promised, remaining⟩ := assures current later kept reply after performed
    exact ⟨keptAfter, promised, hypothesis reply remaining⟩

/-- The rule for a program of one call. -/
theorem Assures.perform {post : Except Error (I.Reply operation) → World → Prop} {world : World} (knows : World → Prop)
    (stable : ∀ before after, knows before → env.interferes before after → knows after) (known : knows world)
    (answer : ∀ current reply after, knows current → valid current → env.performs current operation reply after →
      valid after ∧ promise current after ∧ post reply after) :
    env.Assures valid promise post (Program.perform operation) world := by
  intro current later kept reply after performed
  obtain ⟨keptAfter, promised, ends⟩ := answer current reply after (later.remembers knows stable known) kept performed
  cases reply with
  | ok value => exact ⟨keptAfter, promised, ends⟩
  | error error => exact ⟨keptAfter, promised, ends⟩

end Environment

/-- A running program. -/
structure Thread (I : Interface) (Error α : Type) where
  id : Nat
  program : Program I Error α

structure Pool (I : Interface) (Error α World : Type) where
  world : World
  threads : List (Thread I Error α) := []

/-- What threads run, how the world answers each of them, and what is left when one ends. -/
structure Sharing (I : Interface) (Error α World : Type) where
  Task : Type
  Answer : Type
  code : Task → Program I Error α
  respond : (id : Nat) → World → (operation : I.Operation) → Answer → Option (Except Error (I.Reply operation) × World)
  release : (id : Nat) → World → World

namespace Sharing

/-- A thread comes, is answered, or leaves: it is at its end, or it is lost. -/
inductive Event (sharing : Sharing I Error α World) where
  | arrive (id : Nat) (task : sharing.Task)
  | answer (id : Nat) (answer : sharing.Answer)
  | leave (id : Nat)

variable (sharing : Sharing I Error α World)

/-- The call of a thread, answered. -/
def answered (id : Nat) (answer : sharing.Answer) (world : World) : Program I Error α →
    Option (Program I Error α × World)
  | .call operation next => (sharing.respond id world operation answer).map fun (reply, after) => (next reply, after)
  | _ => none

def step : sharing.Event → Pool I Error α World → Option (Pool I Error α World)
  | .arrive id task, pool =>
    if ∀ thread ∈ pool.threads, thread.id ≠ id then some { pool with threads := ⟨id, sharing.code task⟩ :: pool.threads }
    else none
  | .answer id answer, pool => do
    let thread ← Table.lookup Thread.id id pool.threads
    let (program, after) ← sharing.answered id answer pool.world thread.program
    return ⟨after, Table.modify Thread.id id (fun thread => { thread with program := program }) pool.threads⟩
  | .leave id, pool =>
    some ⟨sharing.release id pool.world, pool.threads.filter fun thread => decide (thread.id ≠ id)⟩

/-- What a thread sees, if the others do no more than it relies on. -/
def environment (rely : Nat → World → World → Prop) (id : Nat) : Environment I Error World where
  performs world operation reply after := ∃ answer, sharing.respond id world operation answer = some (reply, after)
  interferes := rely id

end Sharing

/-- All other threads get what they rely on. -/
def Spares (rely : Nat → World → World → Prop) (id : Nat) (before after : World) : Prop :=
  ∀ other, other ≠ id → rely other before after

/-- The world is valid, and every thread can go on from here. -/
structure Pool.Sound (sharing : Sharing I Error α World) (rely : Nat → World → World → Prop) (valid : World → Prop)
    (pool : Pool I Error α World) : Prop where
  world : valid pool.world
  threads : ∀ thread ∈ pool.threads,
    (sharing.environment rely thread.id).Keeps valid (Spares rely thread.id) thread.program pool.world

section Sound
variable {sharing : Sharing I Error α World} {rely : Nat → World → World → Prop} {valid : World → Prop}
  {pool after : Pool I Error α World}

/-- A step from outside that every thread can bear. -/
theorem Pool.Sound.outside (sound : pool.Sound sharing rely valid) {world : World} (kept : valid world)
    (borne : ∀ id, rely id pool.world world) : Pool.Sound sharing rely valid ⟨world, pool.threads⟩ where
  world := kept
  threads thread member := (sound.threads thread member).later (borne thread.id)

theorem Pool.Sound.step (sound : pool.Sound sharing rely valid)
    (codes : ∀ id task world, valid world →
      (sharing.environment rely id).Keeps valid (Spares rely id) (sharing.code task) world)
    (released : ∀ id world, valid world →
      valid (sharing.release id world) ∧ Spares rely id world (sharing.release id world))
    {event : sharing.Event} (stepped : sharing.step event pool = some after) : after.Sound sharing rely valid := by
  cases event with
  | arrive id task =>
    simp only [Sharing.step] at stepped
    split at stepped
    · cases stepped
      refine ⟨sound.world, ?_⟩
      intro thread member
      rcases List.mem_cons.mp member with rfl | old
      · exact codes id task pool.world sound.world
      · exact sound.threads thread old
    · cases stepped
  | answer id answer =>
    obtain ⟨thread, known, stepped⟩ := Option.bind_eq_some_iff.mp stepped
    obtain ⟨⟨program, world⟩, performed, stepped⟩ := Option.bind_eq_some_iff.mp stepped
    cases stepped
    obtain rfl : thread.id = id := Table.key_of_lookup known
    have safe := sound.threads thread (Table.mem_of_lookup known)
    obtain ⟨kept, spared, goesOn⟩ : valid world ∧ Spares rely thread.id pool.world world ∧
        (sharing.environment rely thread.id).Keeps valid (Spares rely thread.id) program world := by
      cases code : thread.program with
      | done value =>
        rw [code] at performed
        cases performed
      | raise error =>
        rw [code] at performed
        cases performed
      | call operation next =>
        rw [code] at performed safe
        obtain ⟨⟨reply, after⟩, responded, same⟩ := Option.map_eq_some_iff.mp performed
        cases same
        exact safe pool.world .refl sound.world reply _ ⟨answer, responded⟩
    refine ⟨kept, ?_⟩
    intro other member
    rcases Table.mem_modify member with ⟨old, -, own, rfl⟩ | ⟨old, different⟩
    · simp only [own]
      exact goesOn
    · exact (sound.threads other old).later (spared other.id different)
  | leave id =>
    cases stepped
    obtain ⟨kept, spared⟩ := released id pool.world sound.world
    refine ⟨kept, ?_⟩
    intro thread member
    obtain ⟨old, different⟩ := List.mem_filter.mp member
    exact (sound.threads thread old).later (spared thread.id (of_decide_eq_true different))

end Sound

end TronForge.Library
