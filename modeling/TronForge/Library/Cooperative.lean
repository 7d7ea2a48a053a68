import TronForge.Library.Machine
import TronForge.Library.Program
import TronForge.Library.Table

/-! Threads that take turns in one world. Some calls are done at once; only at the others
does a thread wait and let the rest run. A thread may start tasks, and may end in the
task that it goes on with. -/

namespace TronForge.Library

/-- What becomes of a call: it is done, and may have started tasks, or the thread waits
for its answer. -/
inductive Issued (Error Task World Reply : Type) where
  | atOnce (reply : Except Error Reply) (after : World) (started : List Task)
  | waits (after : World)

/-- The world that a call leaves. -/
def Issued.world {Error Task World Reply : Type} : Issued Error Task World Reply → World
  | .atOnce _ after _ | .waits after => after

def Issued.tasks {Error Task World Reply : Type} : Issued Error Task World Reply → List Task
  | .atOnce _ _ started => started
  | .waits _ => []

/-- What threads run and how the world answers them. `finished` is what the end of a
thread leaves behind, and `arrived` what a task from outside does when it comes. -/
structure Cooperative (I : Interface) (Error World : Type) where
  Task : Type
  Answer : Type
  code : Task → Program I Error (Option Task)
  issue : Task → World → (operation : I.Operation) → Issued Error Task World (I.Reply operation)
  respond : Task → World → (operation : I.Operation) → Answer → Option (Except Error (I.Reply operation) × World)
  finished : Task → World → World × List Task
  arrived : Task → World → Option World

namespace Program

variable {I : Interface} {Error α β : Type}

/-- Every call the program can come to make is allowed, and so is what it returns. -/
def Abides (allowed : I.Operation → Prop) (returns : α → Prop) : Program I Error α → Prop
  | .done value => returns value
  | .raise _ => True
  | .call operation next => allowed operation ∧ ∀ reply, (next reply).Abides allowed returns

variable {allowed : I.Operation → Prop} {returns : α → Prop} {ends : β → Prop} {program : Program I Error α}

theorem Abides.weaken {wider : I.Operation → Prop} {further : α → Prop} (abides : program.Abides allowed returns)
    (implies : ∀ operation, allowed operation → wider operation) (follows : ∀ value, returns value → further value) :
    program.Abides wider further := by
  induction program with
  | done value => exact follows value abides
  | raise error => trivial
  | call operation next hypothesis =>
    obtain ⟨permitted, remaining⟩ := abides
    exact ⟨implies operation permitted, fun reply => hypothesis reply (remaining reply)⟩

theorem Abides.bind {rest : α → Program I Error β} (abides : program.Abides allowed returns)
    (resume : ∀ value, returns value → (rest value).Abides allowed ends) : (program >>= rest).Abides allowed ends := by
  induction program with
  | done value => exact resume value abides
  | raise error => trivial
  | call operation next hypothesis =>
    obtain ⟨permitted, remaining⟩ := abides
    exact ⟨permitted, fun reply => hypothesis reply (remaining reply)⟩

theorem abides_perform {operation : I.Operation} {returns : I.Reply operation → Prop} (permitted : allowed operation)
    (known : ∀ value, returns value) : (perform operation : Program I Error _).Abides allowed returns := by
  refine ⟨permitted, ?_⟩
  intro reply
  cases reply with
  | ok value => exact known value
  | error error => trivial

theorem Abides.attempt {outcomes : Except Error α → Prop} (abides : program.Abides allowed returns)
    (succeeds : ∀ value, returns value → outcomes (.ok value)) (fails : ∀ error, outcomes (.error error)) :
    program.attempt.Abides allowed outcomes := by
  induction program with
  | done value => exact succeeds value abides
  | raise error => exact fails error
  | call operation next hypothesis =>
    obtain ⟨permitted, remaining⟩ := abides
    exact ⟨permitted, fun reply => hypothesis reply (remaining reply)⟩

end Program

namespace Cooperative

variable {I : Interface} {Error World : Type} (threads : Cooperative I Error World)

abbrev Code := Program I Error (Option threads.Task)

structure Thread where
  id : Nat
  task : threads.Task
  program : threads.Code

/-- `ready` holds the tasks that were started and have not run yet. -/
structure Pool where
  world : World
  ready : List threads.Task := []
  waiting : List threads.Thread := []

/-- A program that has run up to its next wait. -/
structure Settled where
  program : threads.Code
  world : World
  started : List threads.Task

/-- Run the program of a task up to its next wait or its end. -/
def settle (task : threads.Task) : threads.Code → World → threads.Settled
  | .done outcome, world => ⟨.done outcome, world, []⟩
  | .raise error, world => ⟨.raise error, world, []⟩
  | .call operation next, world =>
    match threads.issue task world operation with
    | .waits after => ⟨.call operation next, after, []⟩
    | .atOnce reply after started =>
      let settled := settle task (next reply) after
      { settled with started := started ++ settled.started }

inductive Event where
  | arrive (task : threads.Task)
  | start (position id : Nat)
  | answer (id : Nat) (answer : threads.Answer)
  | finish (id : Nat)
  | cancel (id : Nat)

/-- The wait of a thread, answered. -/
def answered (task : threads.Task) (answer : threads.Answer) (world : World) :
    threads.Code → Option (threads.Code × World)
  | .call operation next =>
    (threads.respond task world operation answer).map fun (reply, after) => (next reply, after)
  | _ => none

/-- What comes after the end of a program. -/
def afterwards (task : threads.Task) (world : World) : threads.Code → Option (World × List threads.Task)
  | .done (some next) => some (world, [next])
  | .done none | .raise _ => some (threads.finished task world)
  | .call _ _ => none

def Pool.without {threads : Cooperative I Error World} (id : Nat) (pool : threads.Pool) : List threads.Thread :=
  pool.waiting.filter fun thread => decide (thread.id ≠ id)

def step : threads.Event → threads.Pool → Option threads.Pool
  | .arrive task, pool =>
    (threads.arrived task pool.world).map fun world => { pool with world := world, ready := pool.ready ++ [task] }
  | .start position id, pool => do
    let task ← pool.ready[position]?
    guard (∀ thread ∈ pool.waiting, thread.id ≠ id)
    let settled := threads.settle task (threads.code task) pool.world
    return ⟨settled.world, pool.ready.eraseIdx position ++ settled.started, ⟨id, task, settled.program⟩ :: pool.waiting⟩
  | .answer id answer, pool => do
    let thread ← Table.lookup Thread.id id pool.waiting
    let (program, world) ← threads.answered thread.task answer pool.world thread.program
    let settled := threads.settle thread.task program world
    return ⟨settled.world, pool.ready ++ settled.started,
      Table.modify Thread.id id (fun _ => { thread with program := settled.program }) pool.waiting⟩
  | .finish id, pool => do
    let thread ← Table.lookup Thread.id id pool.waiting
    let (world, started) ← threads.afterwards thread.task pool.world thread.program
    return ⟨world, pool.ready ++ started, pool.without id⟩
  | .cancel id, pool => do
    let thread ← Table.lookup Thread.id id pool.waiting
    let (world, started) := threads.finished thread.task pool.world
    return ⟨world, pool.ready ++ started, pool.without id⟩

def machine : Machine threads.Pool threads.Event := ⟨threads.step⟩

/-- What is kept: worlds are valid, tasks are good in their world, and stay good as the
world grows. -/
structure Promise where
  valid : World → Prop
  grows : World → World → Prop
  good : threads.Task → World → Prop
  refl : ∀ world, grows world world
  trans : ∀ {first second third}, grows first second → grows second third → grows first third
  lasts : ∀ {task before after}, good task before → grows before after → good task after

variable {threads} (promise : threads.Promise)

/-- From here on the program of a task leaves valid worlds wherever it waits or ends, and
starts good tasks only. Of what it knew before a wait it uses that its own task is good. -/
def Keeps (task : threads.Task) : threads.Code → World → Prop
  | .done outcome, world => promise.valid world ∧ ∀ next ∈ outcome, promise.good next world
  | .raise _, world => promise.valid world
  | .call operation next, world =>
    match threads.issue task world operation with
    | .atOnce reply after started =>
      promise.grows world after ∧ (∀ other ∈ started, promise.good other after) ∧ Keeps task (next reply) after
    | .waits after => promise.grows world after ∧ promise.valid after ∧
        ∀ current answer reply later, promise.valid current → promise.good task current →
          threads.respond task current operation answer = some (reply, later) →
          promise.grows current later ∧ Keeps task (next reply) later

/-- The same of a program that waits or has ended. -/
def Rests (task : threads.Task) : threads.Code → World → Prop
  | .done outcome, world => ∀ next ∈ outcome, promise.good next world
  | .raise _, _ => True
  | .call operation next, _ => ∀ current answer reply later, promise.valid current → promise.good task current →
      threads.respond task current operation answer = some (reply, later) →
      promise.grows current later ∧ Keeps promise task (next reply) later

variable {promise}

theorem Rests.later {task : threads.Task} {program : threads.Code} {before after : World}
    (rests : Rests promise task program before) (grown : promise.grows before after) :
    Rests promise task program after := by
  cases program with
  | done outcome => exact fun next member => promise.lasts (rests next member) grown
  | raise error => trivial
  | call operation next => exact rests

theorem Keeps.settled {task : threads.Task} {program : threads.Code} {world : World}
    (keeps : Keeps promise task program world) :
    promise.grows world (threads.settle task program world).world ∧
      promise.valid (threads.settle task program world).world ∧
      (∀ other ∈ (threads.settle task program world).started,
        promise.good other (threads.settle task program world).world) ∧
      Rests promise task (threads.settle task program world).program (threads.settle task program world).world := by
  induction program generalizing world with
  | done outcome => exact ⟨promise.refl world, keeps.1, by simp [settle], keeps.2⟩
  | raise error => exact ⟨promise.refl world, keeps, by simp [settle], trivial⟩
  | call operation next hypothesis =>
    cases issued : threads.issue task world operation with
    | waits after =>
      simp only [Keeps, issued] at keeps
      simp only [settle, issued]
      obtain ⟨grown, kept, resume⟩ := keeps
      exact ⟨grown, kept, by simp, resume⟩
    | atOnce reply after started =>
      simp only [Keeps, issued] at keeps
      simp only [settle, issued]
      obtain ⟨grown, fresh, remaining⟩ := keeps
      obtain ⟨further, kept, others, rests⟩ := hypothesis reply remaining
      refine ⟨promise.trans grown further, kept, ?_, rests⟩
      intro other member
      rcases List.mem_append.mp member with own | later
      · exact promise.lasts (fresh other own) further
      · exact others other later

theorem keeps_answered {task : threads.Task} {program next : threads.Code} {answer : threads.Answer}
    {before world after : World} (rests : Rests promise task program before) (kept : promise.valid world)
    (fit : promise.good task world) (responded : threads.answered task answer world program = some (next, after)) :
    promise.grows world after ∧ Keeps promise task next after := by
  cases program with
  | done outcome => cases responded
  | raise error => cases responded
  | call operation resume =>
    obtain ⟨⟨reply, result⟩, answered, same⟩ := Option.map_eq_some_iff.mp responded
    cases same
    exact rests world answer reply after kept fit answered

/-- What the calls of a program do, if it makes allowed calls only. -/
structure Harmless (promise : threads.Promise) (task : threads.Task) (allowed : I.Operation → Prop) : Prop where
  atOnce : ∀ {world operation reply after started}, promise.valid world → promise.good task world → allowed operation →
    threads.issue task world operation = .atOnce reply after started →
    promise.valid after ∧ promise.grows world after ∧ ∀ other ∈ started, promise.good other after
  waits : ∀ {world operation after}, promise.valid world → promise.good task world → allowed operation →
    threads.issue task world operation = .waits after → promise.valid after ∧ promise.grows world after
  responds : ∀ {world operation answer reply after}, promise.valid world → promise.good task world →
    allowed operation → threads.respond task world operation answer = some (reply, after) →
    promise.valid after ∧ promise.grows world after

theorem Harmless.keeps {task : threads.Task} {allowed : I.Operation → Prop} {returns : Option threads.Task → Prop}
    {program : threads.Code} {world : World} (harmless : Harmless promise task allowed) (kept : promise.valid world)
    (fit : promise.good task world) (abides : program.Abides allowed returns)
    (ends : ∀ outcome world, returns outcome → promise.good task world → ∀ next ∈ outcome, promise.good next world) :
    Keeps promise task program world := by
  induction program generalizing world with
  | done outcome => exact ⟨kept, ends outcome world abides fit⟩
  | raise error => exact kept
  | call operation next hypothesis =>
    obtain ⟨permitted, remaining⟩ := abides
    cases issued : threads.issue task world operation with
    | atOnce reply after started =>
      simp only [Keeps, issued]
      obtain ⟨keptAfter, grown, others⟩ := harmless.atOnce kept fit permitted issued
      exact ⟨grown, others, hypothesis reply keptAfter (promise.lasts fit grown) (remaining reply)⟩
    | waits after =>
      simp only [Keeps, issued]
      obtain ⟨keptAfter, grown⟩ := harmless.waits kept fit permitted issued
      refine ⟨grown, keptAfter, ?_⟩
      intro current answer reply later keptNow fitNow responded
      obtain ⟨keptLater, grownLater⟩ := harmless.responds keptNow fitNow permitted responded
      exact ⟨grownLater, hypothesis reply keptLater (promise.lasts fitNow grownLater) (remaining reply)⟩

/-- What the threads and their surroundings have to keep. -/
structure Obeyed (promise : threads.Promise) : Prop where
  arrives : ∀ {task world after}, promise.valid world → threads.arrived task world = some after →
    promise.valid after ∧ promise.grows world after ∧ promise.good task after
  codes : ∀ {task world}, promise.good task world → promise.valid world → Keeps promise task (threads.code task) world
  ends : ∀ {task world}, promise.good task world → promise.valid world →
    promise.valid (threads.finished task world).1 ∧ promise.grows world (threads.finished task world).1 ∧
      ∀ next ∈ (threads.finished task world).2, promise.good next (threads.finished task world).1

/-- The world is valid, every task is good, and every thread can go on. -/
structure Pool.Sound (promise : threads.Promise) (pool : threads.Pool) : Prop where
  world : promise.valid pool.world
  ready : ∀ task ∈ pool.ready, promise.good task pool.world
  waiting : ∀ thread ∈ pool.waiting, promise.good thread.task pool.world ∧
    Rests promise thread.task thread.program pool.world

theorem Pool.Sound.without {pool : threads.Pool} (sound : pool.Sound promise) {world : World} {started : List threads.Task}
    (id : Nat) (kept : promise.valid world) (grown : promise.grows pool.world world)
    (others : ∀ next ∈ started, promise.good next world) :
    Pool.Sound promise ⟨world, pool.ready ++ started, pool.without id⟩ := by
  refine ⟨kept, ?_, ?_⟩
  · intro task member
    rcases List.mem_append.mp member with old | new
    · exact promise.lasts (sound.ready task old) grown
    · exact others task new
  · intro thread member
    obtain ⟨fit, rests⟩ := sound.waiting thread (List.mem_filter.mp member).1
    exact ⟨promise.lasts fit grown, rests.later grown⟩

theorem Pool.Sound.step {pool after : threads.Pool} {event : threads.Event} (obeyed : Obeyed promise)
    (sound : pool.Sound promise) (stepped : threads.step event pool = some after) : after.Sound promise := by
  cases event with
  | arrive task =>
    obtain ⟨world, came, same⟩ := Option.map_eq_some_iff.mp stepped
    cases same
    obtain ⟨kept, grown, fit⟩ := obeyed.arrives sound.world came
    refine ⟨kept, ?_, ?_⟩
    · intro other member
      rcases List.mem_append.mp member with old | new
      · exact promise.lasts (sound.ready other old) grown
      · cases List.mem_singleton.mp new
        exact fit
    · intro thread member
      obtain ⟨fit, rests⟩ := sound.waiting thread member
      exact ⟨promise.lasts fit grown, rests.later grown⟩
  | start position id =>
    obtain ⟨task, chosen, stepped⟩ := Option.bind_eq_some_iff.mp stepped
    obtain ⟨_, _, stepped⟩ := Option.bind_eq_some_iff.mp stepped
    cases stepped
    have fit := sound.ready task (List.mem_of_getElem? chosen)
    obtain ⟨grown, kept, others, rests⟩ := (obeyed.codes fit sound.world).settled
    refine ⟨kept, ?_, ?_⟩
    · intro other member
      rcases List.mem_append.mp member with old | new
      · exact promise.lasts (sound.ready other (List.mem_of_mem_eraseIdx old)) grown
      · exact others other new
    · intro thread member
      rcases List.mem_cons.mp member with rfl | old
      · exact ⟨promise.lasts fit grown, rests⟩
      · obtain ⟨fit, rests⟩ := sound.waiting thread old
        exact ⟨promise.lasts fit grown, rests.later grown⟩
  | answer id answer =>
    obtain ⟨thread, known, stepped⟩ := Option.bind_eq_some_iff.mp stepped
    obtain ⟨⟨program, world⟩, responded, stepped⟩ := Option.bind_eq_some_iff.mp stepped
    cases stepped
    have own := Table.mem_of_lookup known
    obtain ⟨fit, rests⟩ := sound.waiting thread own
    obtain ⟨first, keeps⟩ := keeps_answered rests sound.world fit responded
    obtain ⟨further, kept, others, goesOn⟩ := keeps.settled
    have grown := promise.trans first further
    refine ⟨kept, ?_, ?_⟩
    · intro other member
      rcases List.mem_append.mp member with old | new
      · exact promise.lasts (sound.ready other old) grown
      · exact others other new
    · intro other member
      rcases Table.mem_modify member with ⟨_, _, _, rfl⟩ | ⟨old, -⟩
      · exact ⟨promise.lasts fit grown, goesOn⟩
      · obtain ⟨fit, rests⟩ := sound.waiting other old
        exact ⟨promise.lasts fit grown, rests.later grown⟩
  | finish id =>
    obtain ⟨thread, known, stepped⟩ := Option.bind_eq_some_iff.mp stepped
    obtain ⟨⟨world, started⟩, ended, stepped⟩ := Option.bind_eq_some_iff.mp stepped
    cases stepped
    obtain ⟨fit, rests⟩ := sound.waiting thread (Table.mem_of_lookup known)
    have left := obeyed.ends fit sound.world
    cases code : thread.program with
    | done outcome =>
      rw [code] at ended rests
      cases outcome with
      | none =>
        rw [Option.some.inj ended] at left
        exact sound.without id left.1 left.2.1 left.2.2
      | some next =>
        cases ended
        exact sound.without id sound.world (promise.refl _) fun other member => List.mem_singleton.mp member ▸ rests next rfl
    | raise error =>
      rw [code] at ended
      rw [Option.some.inj ended] at left
      exact sound.without id left.1 left.2.1 left.2.2
    | call operation next =>
      rw [code] at ended
      cases ended
  | cancel id =>
    obtain ⟨thread, known, stepped⟩ := Option.bind_eq_some_iff.mp stepped
    cases stepped
    obtain ⟨kept, grown, others⟩ := obeyed.ends (sound.waiting thread (Table.mem_of_lookup known)).1 sound.world
    exact sound.without id kept grown others

/-- What all threads keep holds after every run from an empty pool. -/
theorem run_sound {world : World} {pool : threads.Pool} (initial : promise.valid world) (obeyed : Obeyed promise)
    (run : threads.machine.Run Machine.anyAction { world := world } pool) : pool.Sound promise := by
  apply run.invariant
  · intro before event after sound _ stepped
    exact sound.step obeyed stepped
  · exact ⟨initial, by simp, by simp⟩

end Cooperative

end TronForge.Library
