import Mathlib.Logic.Relation

/-! Programs that call an outside world, and processes that restart them.
A program is the tree of its calls; every call either replies or raises. A
process runs a start program once and a body program forever, and may lose its
continuation between any two calls. -/

namespace TronForge.Library

/-- The operations a program may call and the type of each reply. -/
structure Interface where
  Operation : Type
  Reply : Operation → Type

inductive Program (I : Interface) (Error α : Type) where
  | done (value : α)
  | raise (error : Error)
  | call (operation : I.Operation)
      (next : Except Error (I.Reply operation) → Program I Error α)

namespace Program

variable {I : Interface} {Error α β : Type}

def bind : Program I Error α → (α → Program I Error β) → Program I Error β
  | .done value, rest => rest value
  | .raise error, _ => .raise error
  | .call operation next, rest => .call operation fun reply => (next reply).bind rest

instance : Monad (Program I Error) where
  pure := .done
  bind := Program.bind

/-- One call; an exception raised by the operation is raised by the program. -/
def perform (operation : I.Operation) : Program I Error (I.Reply operation) :=
  .call operation fun
    | .ok value => .done value
    | .error error => .raise error

/-- Run a program and hand its exception back as a value. -/
def attempt : Program I Error α → Program I Error (Except Error α)
  | .done value => .done (.ok value)
  | .raise error => .done (.error error)
  | .call operation next => .call operation fun reply => (next reply).attempt

/-- Answer every call of a program by a program over other calls. -/
def handle {J : Interface} (implement : (operation : I.Operation) → Program J Error (I.Reply operation)) :
    Program I Error α → Program J Error α
  | .done value => .done value
  | .raise error => .raise error
  | .call operation next => (implement operation).attempt.bind fun reply => (next reply).handle implement

@[simp] theorem pure_eq (value : α) : (pure value : Program I Error α) = .done value := rfl

@[simp] theorem done_bind (value : α) (rest : α → Program I Error β) :
    (Program.done value >>= rest) = rest value := rfl

@[simp] theorem raise_bind (error : Error) (rest : α → Program I Error β) :
    ((Program.raise error : Program I Error α) >>= rest) = .raise error := rfl

@[simp] theorem call_bind (operation : I.Operation)
    (next : Except Error (I.Reply operation) → Program I Error α) (rest : α → Program I Error β) :
    (Program.call operation next >>= rest) = .call operation fun reply => next reply >>= rest := rfl

theorem bind_assoc {γ : Type} (program : Program I Error α) (middle : α → Program I Error β)
    (last : β → Program I Error γ) :
    (program.bind middle).bind last = program.bind fun value => (middle value).bind last := by
  induction program with
  | done value => rfl
  | raise error => rfl
  | call operation next hypothesis =>
    simp only [Program.bind]
    congr 1
    funext reply
    exact hypothesis reply

theorem attempt_bind (program : Program I Error α) (rest : Except Error α → Program I Error β) :
    (program.attempt.bind rest).attempt = program.attempt.bind fun value => (rest value).attempt := by
  induction program with
  | done value => rfl
  | raise error => rfl
  | call operation next hypothesis =>
    simp only [attempt, Program.bind]
    congr 1
    funext reply
    exact hypothesis reply

/-- Every call the program can come to make is allowed. -/
def CallsOnly (allowed : I.Operation → Prop) : Program I Error α → Prop
  | .done _ => True
  | .raise _ => True
  | .call operation next => allowed operation ∧ ∀ reply, (next reply).CallsOnly allowed

section
variable {allowed : I.Operation → Prop}

theorem callsOnly_perform {operation : I.Operation} (permitted : allowed operation) :
    (perform operation : Program I Error (I.Reply operation)).CallsOnly allowed := by
  refine ⟨permitted, ?_⟩
  intro reply
  cases reply <;> trivial

theorem CallsOnly.mono {wider : I.Operation → Prop} {program : Program I Error α} (only : program.CallsOnly allowed)
    (implies : ∀ operation, allowed operation → wider operation) : program.CallsOnly wider := by
  induction program with
  | done value => trivial
  | raise error => trivial
  | call operation next hypothesis =>
    obtain ⟨permitted, remaining⟩ := only
    exact ⟨implies operation permitted, fun reply => hypothesis reply (remaining reply)⟩

theorem CallsOnly.bind {program : Program I Error α} {rest : α → Program I Error β}
    (only : program.CallsOnly allowed) (resume : ∀ value, (rest value).CallsOnly allowed) :
    (program >>= rest).CallsOnly allowed := by
  induction program with
  | done value => exact resume value
  | raise error => trivial
  | call operation next hypothesis =>
    obtain ⟨permitted, remaining⟩ := only
    exact ⟨permitted, fun reply => hypothesis reply (remaining reply)⟩

theorem CallsOnly.attempt {program : Program I Error α} (only : program.CallsOnly allowed) :
    program.attempt.CallsOnly allowed := by
  induction program with
  | done value => trivial
  | raise error => trivial
  | call operation next hypothesis =>
    obtain ⟨permitted, remaining⟩ := only
    exact ⟨permitted, fun reply => hypothesis reply (remaining reply)⟩

end

section
variable {J : Interface} {implement : (operation : I.Operation) → Program J Error (I.Reply operation)}

theorem handle_bind (program : Program I Error α) (rest : α → Program I Error β) :
    (program.bind rest).handle implement = (program.handle implement).bind fun value => (rest value).handle implement := by
  induction program with
  | done value => rfl
  | raise error => rfl
  | call operation next hypothesis =>
    simp only [Program.bind, handle]
    rw [bind_assoc]
    congr 1
    funext reply
    exact hypothesis reply

theorem handle_attempt (program : Program I Error α) :
    program.attempt.handle implement = (program.handle implement).attempt := by
  induction program with
  | done value => rfl
  | raise error => rfl
  | call operation next hypothesis =>
    simp only [attempt, handle]
    rw [attempt_bind]
    congr 1
    funext reply
    exact hypothesis reply

end

end Program

/-- How the world answers a call, and what others may do to it meanwhile. -/
structure Environment (I : Interface) (Error World : Type) where
  performs : World → (operation : I.Operation) → Except Error (I.Reply operation) → World → Prop
  interferes : World → World → Prop

namespace Environment

variable {I : Interface} {Error World α β : Type}

/-- The states others may reach before the next call of the program. -/
def Later (env : Environment I Error World) : World → World → Prop :=
  Relation.ReflTransGen env.interferes

/-- Every call keeps `valid`, whatever the reply and whatever happened before
it; the outcome, a value or an exception, satisfies `post`. -/
def Safe (env : Environment I Error World) (valid : World → Prop)
    (post : Except Error α → World → Prop) : Program I Error α → World → Prop
  | .done value, world => post (.ok value) world
  | .raise error, world => post (.error error) world
  | .call operation next, world =>
    ∀ current, env.Later world current → valid current →
      ∀ reply after, env.performs current operation reply after →
        valid after ∧ env.Safe valid post (next reply) after

variable {env : Environment I Error World} {valid : World → Prop}

/-- What others cannot change stays true. -/
theorem Later.remembers {world current : World} (later : env.Later world current) (knows : World → Prop)
    (stable : ∀ before after, knows before → env.interferes before after → knows after) (known : knows world) :
    knows current := by
  induction later with
  | refl => exact known
  | tail _ step hypothesis => exact stable _ _ hypothesis step

/-- The rule for one call: facts others cannot change are available when the
call is answered. -/
theorem Safe.call {post : Except Error α → World → Prop} {world : World}
    {operation : I.Operation} {next : Except Error (I.Reply operation) → Program I Error α}
    (knows : World → Prop) (stable : ∀ before after, knows before → env.interferes before after →
      knows after) (known : knows world)
    (answer : ∀ current reply after, knows current → valid current →
      env.performs current operation reply after →
      valid after ∧ env.Safe valid post (next reply) after) :
    env.Safe valid post (.call operation next) world := by
  intro current later kept reply after performed
  exact answer current reply after (later.remembers knows stable known) kept performed

theorem Safe.weaken {first post : Except Error α → World → Prop} {program : Program I Error α}
    {world : World} (safe : env.Safe valid first program world)
    (implies : ∀ outcome current, first outcome current → post outcome current) :
    env.Safe valid post program world := by
  induction program generalizing world with
  | done value => exact implies _ _ safe
  | raise error => exact implies _ _ safe
  | call operation next ih =>
    intro current later kept reply after performed
    obtain ⟨keptAfter, rest⟩ := safe current later kept reply after performed
    exact ⟨keptAfter, ih reply rest⟩

theorem Safe.bind {first : Except Error α → World → Prop} {post : Except Error β → World → Prop}
    {program : Program I Error α} {rest : α → Program I Error β} {world : World}
    (safe : env.Safe valid first program world)
    (resume : ∀ value current, first (.ok value) current → env.Safe valid post (rest value) current)
    (fail : ∀ error current, first (.error error) current → post (.error error) current) :
    env.Safe valid post (program >>= rest) world := by
  induction program generalizing world with
  | done value => exact resume value world safe
  | raise error => exact fail error world safe
  | call operation next ih =>
    intro current later kept reply after performed
    obtain ⟨keptAfter, remaining⟩ := safe current later kept reply after performed
    exact ⟨keptAfter, ih reply remaining⟩

theorem Safe.attempt {first : Except Error α → World → Prop}
    {post : Except Error (Except Error α) → World → Prop} {program : Program I Error α} {world : World}
    (safe : env.Safe valid first program world)
    (implies : ∀ outcome current, first outcome current → post (.ok outcome) current) :
    env.Safe valid post program.attempt world := by
  induction program generalizing world with
  | done value => exact implies _ _ safe
  | raise error => exact implies _ _ safe
  | call operation next ih =>
    intro current later kept reply after performed
    obtain ⟨keptAfter, remaining⟩ := safe current later kept reply after performed
    exact ⟨keptAfter, ih reply remaining⟩

/-- The rule for a program whose calls all keep an invariant of their own. -/
theorem Safe.of_callsOnly {invariant : World → Prop} {allowed : I.Operation → Prop}
    {program : Program I Error α} {world : World} (only : program.CallsOnly allowed)
    (keeps : ∀ current operation reply after, allowed operation → invariant current →
      env.performs current operation reply after → invariant after)
    (stable : ∀ before after, invariant before → env.interferes before after → invariant after)
    (implies : ∀ current, invariant current → valid current) (kept : invariant world) :
    env.Safe valid (fun _ current => invariant current) program world := by
  induction program generalizing world with
  | done value => exact kept
  | raise error => exact kept
  | call operation next ih =>
    obtain ⟨permitted, remaining⟩ := only
    apply Safe.call invariant stable kept
    intro current reply after known _ performed
    have keptAfter := keeps current operation reply after permitted known performed
    exact ⟨implies after keptAfter, ih reply (remaining reply) keptAfter⟩

/-- The rule for a call that a program answers. -/
theorem Safe.handled {J : Interface} {implement : (operation : J.Operation) → Program I Error (J.Reply operation)}
    {operation : J.Operation} {first : Except Error (J.Reply operation) → World → Prop}
    {post : Except Error α → World → Prop} {next : Except Error (J.Reply operation) → Program J Error α} {world : World}
    (safe : env.Safe valid first (implement operation) world)
    (resume : ∀ reply current, first reply current → env.Safe valid post ((next reply).handle implement) current) :
    env.Safe valid post ((Program.call operation next).handle implement) world := by
  let answered : Except Error (Except Error (J.Reply operation)) → World → Prop
    | .ok reply, current => first reply current
    | .error _, _ => False
  have attempted : env.Safe valid answered (implement operation).attempt world := safe.attempt fun _ _ known => known
  exact attempted.bind resume fun _ _ impossible => impossible.elim

end Environment

/-- What a process runs: `start` once after every boot, then `body` forever. -/
structure Process (I : Interface) (Error : Type) where
  start : Program I Error Unit
  body : Program I Error Unit

/-- Where a process stands: not running, or with a continuation left to run. -/
inductive Phase (I : Interface) (Error : Type) where
  | down
  | starting (program : Program I Error Unit)
  | looping (program : Program I Error Unit)

/-- The call a phase waits for. -/
def Phase.awaited {I : Interface} {Error : Type} : Phase I Error → Option I.Operation
  | .starting (.call operation _) | .looping (.call operation _) => some operation
  | _ => none

/-- The process is in its loop. -/
def Phase.inLoop {I : Interface} {Error : Type} : Phase I Error → Bool
  | .looping _ => true
  | .down | .starting _ => false

namespace Process

variable {I : Interface} {Error World : Type}

/-- One step of the process or of its surroundings. A crash may drop the
continuation at any moment; the effects of calls already answered remain. -/
inductive Step (process : Process I Error) (env : Environment I Error World) :
    World × Phase I Error → World × Phase I Error → Prop where
  | boot : Step process env (world, .down) (world, .starting process.start)
  | startCall (performed : env.performs world operation reply after) :
      Step process env (world, .starting (.call operation next)) (after, .starting (next reply))
  | started : Step process env (world, .starting (.done ())) (world, .looping process.body)
  | loopCall (performed : env.performs world operation reply after) :
      Step process env (world, .looping (.call operation next)) (after, .looping (next reply))
  | again : Step process env (world, .looping (.done ())) (world, .looping process.body)
  | startFailed : Step process env (world, .starting (.raise error)) (world, .down)
  | loopFailed : Step process env (world, .looping (.raise error)) (world, .down)
  | crash : Step process env (world, phase) (world, .down)
  | interfere (step : env.interferes world after) :
      Step process env (world, phase) (after, phase)

def Run (process : Process I Error) (env : Environment I Error World) :
    World × Phase I Error → World × Phase I Error → Prop :=
  Relation.ReflTransGen (process.Step env)

/-- The continuation held in a phase is safe in the present world. -/
def PhaseSafe (env : Environment I Error World) (valid : World → Prop) (world : World) :
    Phase I Error → Prop
  | .down => True
  | .starting program => env.Safe valid (fun _ _ => True) program world
  | .looping program => env.Safe valid (fun _ _ => True) program world

variable {process : Process I Error} {env : Environment I Error World} {valid : World → Prop}

private theorem safe_later {program : Program I Error Unit} {world after : World}
    (safe : env.Safe valid (fun _ _ => True) program world) (step : env.interferes world after) :
    env.Safe valid (fun _ _ => True) program after := by
  cases program with
  | done value => trivial
  | raise error => trivial
  | call operation next =>
    intro current later
    exact safe current (later.head step)

theorem step_valid {before after : World × Phase I Error}
    (start : ∀ world, valid world → env.Safe valid (fun _ _ => True) process.start world)
    (body : ∀ world, valid world → env.Safe valid (fun _ _ => True) process.body world)
    (interference : ∀ world next, valid world → env.interferes world next → valid next)
    (kept : valid before.1) (safe : PhaseSafe env valid before.1 before.2)
    (step : process.Step env before after) :
    valid after.1 ∧ PhaseSafe env valid after.1 after.2 := by
  cases step with
  | boot => exact ⟨kept, start _ kept⟩
  | startCall performed => exact safe _ .refl kept _ _ performed
  | started => exact ⟨kept, body _ kept⟩
  | loopCall performed => exact safe _ .refl kept _ _ performed
  | again => exact ⟨kept, body _ kept⟩
  | startFailed => exact ⟨kept, trivial⟩
  | loopFailed => exact ⟨kept, trivial⟩
  | crash => exact ⟨kept, trivial⟩
  | @interfere world after phase step =>
    refine ⟨interference _ _ kept step, ?_⟩
    cases phase with
    | down => trivial
    | starting program => exact safe_later safe step
    | looping program => exact safe_later safe step

/-- A predicate kept by both programs and by the surroundings holds after every
run that starts with the process down. -/
theorem run_valid {world : World} {final : World × Phase I Error}
    (start : ∀ world, valid world → env.Safe valid (fun _ _ => True) process.start world)
    (body : ∀ world, valid world → env.Safe valid (fun _ _ => True) process.body world)
    (interference : ∀ world next, valid world → env.interferes world next → valid next)
    (kept : valid world) (run : process.Run env (world, .down) final) :
    valid final.1 := by
  have general : valid final.1 ∧ PhaseSafe env valid final.1 final.2 := by
    induction run with
    | refl => exact ⟨kept, trivial⟩
    | tail _ step ih => exact step_valid start body interference ih.1 ih.2 step
  exact general.1

end Process

/-- Surroundings given by choices: `respond` checks an answer and computes the
reply with the next world, `interfere` does the same for a change by others. -/
structure Surroundings (I : Interface) (Error World : Type) where
  Answer : Type
  Change : Type
  respond : World → (operation : I.Operation) → Answer →
    Option (Except Error (I.Reply operation) × World)
  interfere : World → Change → Option World

namespace Surroundings

variable {I : Interface} {Error World : Type}

/-- The environment of all choices. -/
def environment (surroundings : Surroundings I Error World) : Environment I Error World where
  performs world operation reply after :=
    ∃ answer, surroundings.respond world operation answer = some (reply, after)
  interferes world after := ∃ change, surroundings.interfere world change = some after

/-- One entry of a schedule; `proceed` is a step that calls nothing. -/
inductive Move (surroundings : Surroundings I Error World) where
  | proceed
  | answer (answer : surroundings.Answer)
  | crash
  | interfere (change : surroundings.Change)

variable (surroundings : Surroundings I Error World) (process : Process I Error)

def move : surroundings.Move → World × Phase I Error → Option (World × Phase I Error)
  | .proceed, (world, .down) => some (world, .starting process.start)
  | .proceed, (world, .starting (.done ())) => some (world, .looping process.body)
  | .proceed, (world, .looping (.done ())) => some (world, .looping process.body)
  | .proceed, (world, .starting (.raise _)) => some (world, .down)
  | .proceed, (world, .looping (.raise _)) => some (world, .down)
  | .answer answer, (world, .starting (.call operation next)) =>
    (surroundings.respond world operation answer).map fun (reply, after) =>
      (after, .starting (next reply))
  | .answer answer, (world, .looping (.call operation next)) =>
    (surroundings.respond world operation answer).map fun (reply, after) =>
      (after, .looping (next reply))
  | .crash, (world, _) => some (world, .down)
  | .interfere change, (world, phase) =>
    (surroundings.interfere world change).map fun after => (after, phase)
  | _, _ => none

/-- Play a schedule from a state; `none` as soon as a move is impossible. -/
def replay : List surroundings.Move → World × Phase I Error → Option (World × Phase I Error)
  | [], state => some state
  | first :: rest, state => (surroundings.move process first state).bind (replay rest)

theorem replay_append (earlier later : List surroundings.Move) (state : World × Phase I Error) :
    surroundings.replay process (earlier ++ later) state =
      (surroundings.replay process earlier state).bind (surroundings.replay process later) := by
  induction earlier generalizing state with
  | nil => rfl
  | cons first rest ih =>
    simp only [List.cons_append, replay]
    cases surroundings.move process first state with
    | none => rfl
    | some middle => exact ih middle

/-- What an answered call leads to. -/
theorem answer_cases {answer : surroundings.Answer} {world after : World} {phase next : Phase I Error}
    (moved : surroundings.move process (.answer answer) (world, phase) = some (after, next)) :
    ∃ operation rest reply, surroundings.respond world operation answer = some (reply, after) ∧
      (phase = .starting (.call operation rest) ∧ next = .starting (rest reply) ∨
        phase = .looping (.call operation rest) ∧ next = .looping (rest reply)) := by
  cases phase with
  | down => cases moved
  | starting program =>
    cases program with
    | done value => cases moved
    | raise error => cases moved
    | call operation rest =>
      obtain ⟨⟨reply, result⟩, answered, same⟩ := Option.map_eq_some_iff.mp moved
      cases same
      exact ⟨operation, rest, reply, answered, .inl ⟨rfl, rfl⟩⟩
  | looping program =>
    cases program with
    | done value => cases moved
    | raise error => cases moved
    | call operation rest =>
      obtain ⟨⟨reply, result⟩, answered, same⟩ := Option.map_eq_some_iff.mp moved
      cases same
      exact ⟨operation, rest, reply, answered, .inr ⟨rfl, rfl⟩⟩

/-- The world moves only by a change of others or by the answer to a call. -/
theorem move_cases {move : surroundings.Move} {world after : World} {phase next : Phase I Error}
    (moved : surroundings.move process move (world, phase) = some (after, next)) :
    after = world ∨ (∃ change, move = .interfere change ∧ surroundings.interfere world change = some after) ∨
      ∃ answer operation reply, move = .answer answer ∧ phase.awaited = some operation ∧
        surroundings.respond world operation answer = some (reply, after) := by
  cases move with
  | proceed =>
    left
    cases phase with
    | down => cases moved; rfl
    | starting program => cases program <;> cases moved <;> rfl
    | looping program => cases program <;> cases moved <;> rfl
  | crash =>
    cases moved
    exact .inl rfl
  | interfere change =>
    obtain ⟨world', changed, same⟩ := Option.map_eq_some_iff.mp moved
    cases same
    exact .inr (.inl ⟨change, rfl, changed⟩)
  | answer answer =>
    obtain ⟨operation, rest, reply, answered, ⟨rfl, -⟩ | ⟨rfl, -⟩⟩ := surroundings.answer_cases process moved
    · exact .inr (.inr ⟨answer, operation, reply, rfl, rfl, answered⟩)
    · exact .inr (.inr ⟨answer, operation, reply, rfl, rfl, answered⟩)

/-- An admissible answer to the awaited call is a possible move. -/
theorem move_awaited {world after : World} {phase : Phase I Error} {operation : I.Operation}
    {answer : surroundings.Answer} {reply : Except Error (I.Reply operation)}
    (waiting : phase.awaited = some operation)
    (answered : surroundings.respond world operation answer = some (reply, after)) :
    ∃ next, surroundings.move process (.answer answer) (world, phase) = some (after, next) := by
  cases phase with
  | down => cases waiting
  | starting program =>
    cases program with
    | call operation rest =>
      cases waiting
      exact ⟨_, Option.map_eq_some_iff.mpr ⟨_, answered, rfl⟩⟩
    | _ => cases waiting
  | looping program =>
    cases program with
    | call operation rest =>
      cases waiting
      exact ⟨_, Option.map_eq_some_iff.mpr ⟨_, answered, rfl⟩⟩
    | _ => cases waiting

theorem move_step {move : surroundings.Move} {before after : World × Phase I Error}
    (moved : surroundings.move process move before = some after) :
    process.Step surroundings.environment before after := by
  obtain ⟨world, phase⟩ := before
  obtain ⟨result, next⟩ := after
  cases move with
  | proceed =>
    cases phase with
    | down => cases moved; exact .boot
    | starting program =>
      cases program with
      | done value => cases moved; exact .started
      | raise error => cases moved; exact .startFailed
      | call operation next => cases moved
    | looping program =>
      cases program with
      | done value => cases moved; exact .again
      | raise error => cases moved; exact .loopFailed
      | call operation next => cases moved
  | answer answer =>
    obtain ⟨operation, rest, reply, answered, ⟨rfl, rfl⟩ | ⟨rfl, rfl⟩⟩ := surroundings.answer_cases process moved
    · exact .startCall ⟨answer, answered⟩
    · exact .loopCall ⟨answer, answered⟩
  | crash => cases moved; exact .crash
  | interfere change =>
    obtain ⟨world', changed, same⟩ := Option.map_eq_some_iff.mp moved
    cases same
    exact .interfere ⟨change, changed⟩

/-- Every step is a move. -/
theorem exists_move {before after : World × Phase I Error}
    (step : process.Step surroundings.environment before after) :
    ∃ move, surroundings.move process move before = some after := by
  cases step with
  | startCall performed | loopCall performed =>
    obtain ⟨answer, answered⟩ := performed
    exact ⟨.answer answer, Option.map_eq_some_iff.mpr ⟨_, answered, rfl⟩⟩
  | interfere step =>
    obtain ⟨change, changed⟩ := step
    exact ⟨.interfere change, Option.map_eq_some_iff.mpr ⟨_, changed, rfl⟩⟩
  | crash => exact ⟨.crash, rfl⟩
  | _ => exact ⟨.proceed, rfl⟩

/-- A schedule that plays to its end is a run. -/
theorem replay_run {moves : List surroundings.Move} {before after : World × Phase I Error}
    (played : surroundings.replay process moves before = some after) :
    process.Run surroundings.environment before after := by
  induction moves generalizing before with
  | nil => cases played; exact .refl
  | cons first rest ih =>
    obtain ⟨middle, moved, remaining⟩ := Option.bind_eq_some_iff.mp played
    exact (Relation.ReflTransGen.single (surroundings.move_step process moved)).trans (ih remaining)

end Surroundings

end TronForge.Library
