import Mathlib.Algebra.BigOperators.Group.List.Basic
import Mathlib.Algebra.Group.Int.Defs
import Mathlib.Algebra.Order.Ring.Int
import TronForge.Library.Cooperative

/-! Accounts of threads that take turns: what has been spent in the world, what a task may
still spend, and that the sum never grows. -/

namespace TronForge.Library

namespace Program

variable {I : Interface} {Error α β : Type} (price : (operation : I.Operation) → Except Error (I.Reply operation) → Nat)

/-- Whatever the replies, the program pays for each out of its budget, and returns or
raises with what is left. -/
def Costs (returns : α → Nat → Prop) (raises : Error → Nat → Prop) : Program I Error α → Nat → Prop
  | .done value, budget => returns value budget
  | .raise error, budget => raises error budget
  | .call operation next, budget => ∀ reply, price operation reply ≤ budget ∧
      (next reply).Costs returns raises (budget - price operation reply)

variable {price} {returns : α → Nat → Prop} {raises : Error → Nat → Prop} {program : Program I Error α} {budget : Nat}

theorem Costs.bind {ends : β → Nat → Prop} {rest : α → Program I Error β}
    (costs : program.Costs price returns raises budget)
    (resume : ∀ value left, returns value left → (rest value).Costs price ends raises left) :
    (program >>= rest).Costs price ends raises budget := by
  induction program generalizing budget with
  | done value => exact resume value budget costs
  | raise error => exact costs
  | call operation next hypothesis =>
    intro reply
    obtain ⟨cheap, remaining⟩ := costs reply
    exact ⟨cheap, hypothesis reply remaining⟩

theorem Costs.attempt {outcomes : Except Error α → Nat → Prop} {others : Error → Nat → Prop}
    (costs : program.Costs price returns raises budget)
    (succeeds : ∀ value left, returns value left → outcomes (.ok value) left)
    (fails : ∀ error left, raises error left → outcomes (.error error) left) :
    program.attempt.Costs price outcomes others budget := by
  induction program generalizing budget with
  | done value => exact succeeds value budget costs
  | raise error => exact fails error budget costs
  | call operation next hypothesis =>
    intro reply
    obtain ⟨cheap, remaining⟩ := costs reply
    exact ⟨cheap, hypothesis reply remaining⟩

theorem Costs.weaken {further : α → Nat → Prop} {others : Error → Nat → Prop}
    (costs : program.Costs price returns raises budget) (follows : ∀ value left, returns value left → further value left)
    (fails : ∀ error left, raises error left → others error left) : program.Costs price further others budget := by
  induction program generalizing budget with
  | done value => exact follows value budget costs
  | raise error => exact fails error budget costs
  | call operation next hypothesis =>
    intro reply
    obtain ⟨cheap, remaining⟩ := costs reply
    exact ⟨cheap, hypothesis reply remaining⟩

theorem costs_perform {operation : I.Operation} {returns : I.Reply operation → Nat → Prop}
    (cheap : ∀ reply, price operation reply ≤ budget)
    (succeeds : ∀ value, returns value (budget - price operation (.ok value)))
    (fails : ∀ error, raises error (budget - price operation (.error error))) :
    (perform operation).Costs price returns raises budget := by
  intro reply
  refine ⟨cheap reply, ?_⟩
  cases reply with
  | ok value => exact succeeds value
  | error error => exact fails error

/-- Calls that cost nothing leave the whole budget. -/
theorem Abides.costs {allowed : I.Operation → Prop} {known : α → Prop} (abides : program.Abides allowed known)
    (free : ∀ operation, allowed operation → ∀ reply, price operation reply = 0) :
    program.Costs price (fun value left => known value ∧ left = budget) (fun _ left => left = budget) budget := by
  induction program with
  | done value => exact ⟨abides, rfl⟩
  | raise error => rfl
  | call operation next hypothesis =>
    intro reply
    obtain ⟨permitted, remaining⟩ := abides
    have nothing := free operation permitted reply
    refine ⟨nothing ▸ Nat.zero_le budget, ?_⟩
    rw [nothing, Nat.sub_zero]
    exact hypothesis reply (remaining reply)

theorem abides_always (program : Program I Error α) : program.Abides (fun _ => True) fun _ => True := by
  induction program with
  | done value => trivial
  | raise error => trivial
  | call operation next hypothesis => exact ⟨trivial, hypothesis⟩

end Program

namespace Cooperative

variable {I : Interface} {Error World : Type} (threads : Cooperative I Error World)

/-- `charge` is what is spent in a world, `cost` what a task may spend. -/
structure Account where
  charge : World → Int
  cost : threads.Task → Int
  nonneg : ∀ task, 0 ≤ cost task

variable {threads} (account : threads.Account)

def Account.total (tasks : List threads.Task) : Int := (tasks.map account.cost).sum

/-- What the end of a program costs: the task it goes on with, if any. -/
def Account.ending (outcome : Option threads.Task) : Int := (outcome.map account.cost).getD 0

/-- From this world on, up to its next wait and after it, the program keeps what is spent,
and what it may still spend, within the bound. Others may spend while it waits. -/
def Affords (task : threads.Task) : threads.Code → World → Int → Prop
  | .done outcome, world, bound => account.charge world + account.ending outcome ≤ bound
  | .raise _, world, bound => account.charge world ≤ bound
  | .call operation next, world, bound =>
    match threads.issue task world operation with
    | .atOnce reply after started => Affords task (next reply) after (bound - account.total started)
    | .waits after => account.charge after ≤ bound ∧
        ∀ current answer reply later, threads.respond task current operation answer = some (reply, later) →
          Affords task (next reply) later (account.charge current + (bound - account.charge after))

/-- A program that waits or has ended, and what it has left to spend. -/
def Holds (task : threads.Task) (left : Int) : threads.Code → Prop
  | .done outcome => account.ending outcome ≤ left
  | .raise _ => 0 ≤ left
  | .call operation next => 0 ≤ left ∧
      ∀ current answer reply later, threads.respond task current operation answer = some (reply, later) →
        Affords account task (next reply) later (account.charge current + left)

variable {account} {task : threads.Task} {program : threads.Code} {world : World} {bound left : Int}

theorem Account.ending_nonneg (outcome : Option threads.Task) : 0 ≤ account.ending outcome := by
  cases outcome with
  | none => exact le_rfl
  | some next => exact account.nonneg next

theorem Account.total_nonneg (tasks : List threads.Task) : 0 ≤ account.total tasks := by
  induction tasks with
  | nil => exact le_rfl
  | cons task rest hypothesis => exact add_nonneg (account.nonneg task) hypothesis

theorem Account.total_append (first second : List threads.Task) :
    account.total (first ++ second) = account.total first + account.total second := by
  rw [total, List.map_append, List.sum_append]
  rfl

theorem Holds.nonneg (holds : Holds account task left program) : 0 ≤ left := by
  cases program with
  | done outcome => exact (Account.ending_nonneg outcome).trans holds
  | raise error => exact holds
  | call operation next => exact holds.1

theorem Affords.settled (affords : Affords account task program world bound) :
    ∃ left, Holds account task left (threads.settle task program world).program ∧
      account.charge (threads.settle task program world).world +
        account.total (threads.settle task program world).started + left ≤ bound := by
  induction program generalizing world bound with
  | done outcome =>
    refine ⟨account.ending outcome, le_rfl, ?_⟩
    simp only [settle, Account.total, List.map_nil, List.sum_nil, add_zero]
    exact affords
  | raise error =>
    refine ⟨0, le_rfl, ?_⟩
    simp only [settle, Account.total, List.map_nil, List.sum_nil, add_zero]
    exact affords
  | call operation next hypothesis =>
    cases issued : threads.issue task world operation with
    | waits after =>
      simp only [Affords, issued] at affords
      simp only [settle, issued]
      refine ⟨bound - account.charge after, ⟨sub_nonneg.mpr affords.1, affords.2⟩, ?_⟩
      simp only [Account.total, List.map_nil, List.sum_nil]
      omega
    | atOnce reply after started =>
      simp only [Affords, issued] at affords
      obtain ⟨left, holds, within⟩ := hypothesis reply affords
      simp only [settle, issued]
      refine ⟨left, holds, ?_⟩
      rw [Account.total_append]
      omega

theorem Holds.answered {answer : threads.Answer} {next : threads.Code} {after : World}
    (holds : Holds account task left program) (responded : threads.answered task answer world program = some (next, after)) :
    Affords account task next after (account.charge world + left) := by
  cases program with
  | done outcome => cases responded
  | raise error => cases responded
  | call operation resume =>
    obtain ⟨⟨reply, result⟩, answered, same⟩ := Option.map_eq_some_iff.mp responded
    cases same
    exact holds.2 world answer reply after answered

/-- Prices that cover what the calls of a task spend and start. -/
structure Priced (account : threads.Account) (task : threads.Task)
    (price : (operation : I.Operation) → Except Error (I.Reply operation) → Nat) : Prop where
  atOnce : ∀ {world operation reply after started}, threads.issue task world operation = .atOnce reply after started →
    account.charge after + account.total started ≤ account.charge world + price operation reply
  waits : ∀ {world operation after}, threads.issue task world operation = .waits after →
    account.charge after ≤ account.charge world
  responds : ∀ {world operation answer reply after}, threads.respond task world operation answer = some (reply, after) →
    account.charge after ≤ account.charge world + price operation reply

/-- A program that stays within its budget can be afforded wherever there is room for it. -/
theorem Priced.affords {price : (operation : I.Operation) → Except Error (I.Reply operation) → Nat} {budget : Nat}
    (priced : Priced account task price)
    (costs : program.Costs price (fun outcome left => account.ending outcome ≤ (left : Nat)) (fun _ _ => True) budget)
    (within : account.charge world + budget ≤ bound) : Affords account task program world bound := by
  induction program generalizing world bound budget with
  | done outcome =>
    have ending : account.ending outcome ≤ (budget : Nat) := costs
    show account.charge world + account.ending outcome ≤ bound
    omega
  | raise error =>
    show account.charge world ≤ bound
    omega
  | call operation next hypothesis =>
    cases issued : threads.issue task world operation with
    | atOnce reply after started =>
      have spent := priced.atOnce issued
      obtain ⟨cheap, remaining⟩ := costs reply
      simp only [Affords, issued]
      apply hypothesis reply remaining
      push_cast [cheap]
      omega
    | waits after =>
      have spent := priced.waits issued
      simp only [Affords, issued]
      refine ⟨by omega, ?_⟩
      intro current answer reply later responded
      have further := priced.responds responded
      obtain ⟨cheap, remaining⟩ := costs reply
      apply hypothesis reply remaining
      push_cast [cheap]
      omega

/-- What tasks, their ends and what comes from outside have to keep. -/
structure Balanced (account : threads.Account) : Prop where
  codes : ∀ task world, Affords account task (threads.code task) world (account.charge world + account.cost task)
  ends : ∀ task world, account.charge (threads.finished task world).1 +
    account.total (threads.finished task world).2 ≤ account.charge world
  arrives : ∀ {task world after}, threads.arrived task world = some after →
    account.charge after + account.cost task ≤ account.charge world

/-- What is spent, with what all tasks and threads may still spend, is within the bound. -/
structure Pool.Within (account : threads.Account) (bound : Int) (pool : threads.Pool) : Prop where
  unique : Table.Unique Thread.id pool.waiting
  shares : ∃ share : Nat → Int, (∀ thread ∈ pool.waiting, Holds account thread.task (share thread.id) thread.program) ∧
    account.charge pool.world + account.total pool.ready + ((pool.waiting.map Thread.id).map share).sum ≤ bound

section Shares
variable {ids : List Nat} {share : Nat → Int} {id : Nat}

theorem sum_nonneg (nonneg : ∀ other ∈ ids, 0 ≤ share other) : 0 ≤ (ids.map share).sum := by
  induction ids with
  | nil => exact le_rfl
  | cons head rest hypothesis =>
    exact add_nonneg (nonneg head List.mem_cons_self)
      (hypothesis fun other member => nonneg other (List.mem_cons_of_mem _ member))

/-- A share that no one has changes no sum. -/
theorem sum_update_absent (absent : id ∉ ids) (value : Int) :
    (ids.map (Function.update share id value)).sum = (ids.map share).sum := by
  congr 1
  apply List.map_congr_left
  intro other member
  apply Function.update_of_ne
  intro same
  rw [same] at member
  exact absent member

theorem sum_update (unique : ids.Nodup) (member : id ∈ ids) (value : Int) :
    (ids.map (Function.update share id value)).sum = (ids.map share).sum - share id + value := by
  induction ids with
  | nil => cases member
  | cons head rest hypothesis =>
    obtain ⟨fresh, unique⟩ := List.nodup_cons.mp unique
    rw [List.map_cons, List.sum_cons, List.map_cons, List.sum_cons]
    rcases List.mem_cons.mp member with same | later
    · subst same
      rw [Function.update_self, sum_update_absent fresh]
      omega
    · have different : head ≠ id := fun same => fresh (same ▸ later)
      rw [Function.update_of_ne different, hypothesis unique later]
      omega

theorem sum_without (unique : ids.Nodup) (member : id ∈ ids) :
    ((ids.filter fun other => decide (other ≠ id)).map share).sum = (ids.map share).sum - share id := by
  have erased := List.sum_map_erase share member
  rw [unique.erase_eq_filter] at erased
  have same : (ids.filter fun other => decide (other ≠ id)) = ids.filter (· != id) := by
    apply List.filter_congr
    intro other _
    by_cases equal : other = id <;> simp [equal]
  rw [same]
  omega

end Shares

/-- A task that is taken takes its cost with it. -/
theorem Account.total_eraseIdx {tasks : List threads.Task} {position : Nat} (chosen : tasks[position]? = some task) :
    account.total tasks = account.cost task + account.total (tasks.eraseIdx position) := by
  obtain ⟨inside, same⟩ := List.getElem?_eq_some_iff.mp chosen
  have exchanged := (List.getElem_cons_eraseIdx_perm inside).map account.cost
  rw [same] at exchanged
  exact exchanged.sum_eq.symm

/-- A thread that ends leaves its share. -/
theorem Pool.Within.without {pool : threads.Pool} {thread : threads.Thread} {id : Nat} {after : World}
    {started : List threads.Task} (within : pool.Within account bound)
    (known : Table.lookup Thread.id id pool.waiting = some thread)
    (paid : ∀ left, Holds account thread.task left thread.program →
      account.charge after + account.total started ≤ account.charge pool.world + left) :
    Pool.Within account bound ⟨after, pool.ready ++ started, pool.without id⟩ := by
  obtain ⟨unique, share, holds, sum⟩ := within
  have own := Table.mem_of_lookup known
  have mine := Table.key_of_lookup known
  have present : id ∈ pool.waiting.map Thread.id := mine ▸ List.mem_map_of_mem own
  refine ⟨unique.filter _, share, ?_, ?_⟩
  · exact fun other member => holds other (List.mem_filter.mp member).1
  · have ids : (pool.without id).map Thread.id =
        (pool.waiting.map Thread.id).filter fun other => decide (other ≠ id) := by
      rw [Pool.without, List.filter_map]
      rfl
    have spent := paid _ (holds thread own)
    rw [mine] at spent
    simp only [ids, sum_without unique present, Account.total_append]
    omega

theorem Pool.Within.step {pool after : threads.Pool} {event : threads.Event} (balanced : Balanced account)
    (within : pool.Within account bound) (stepped : threads.step event pool = some after) :
    after.Within account bound := by
  cases event with
  | arrive task =>
    obtain ⟨world, came, same⟩ := Option.map_eq_some_iff.mp stepped
    cases same
    obtain ⟨unique, share, holds, sum⟩ := within
    have paid := balanced.arrives came
    refine ⟨unique, share, holds, ?_⟩
    have single : account.total [task] = account.cost task := by simp [Account.total]
    simp only [Account.total_append, single]
    omega
  | start position id =>
    obtain ⟨task, chosen, stepped⟩ := Option.bind_eq_some_iff.mp stepped
    obtain ⟨_, fresh, stepped⟩ := Option.bind_eq_some_iff.mp stepped
    cases stepped
    obtain ⟨unique, share, holds, sum⟩ := within
    obtain ⟨left, own, spent⟩ := (balanced.codes task pool.world).settled
    have absent : id ∉ pool.waiting.map Thread.id := by
      intro member
      obtain ⟨thread, inside, same⟩ := List.mem_map.mp member
      simp only [guard] at fresh
      split at fresh
      · rename_i distinct
        exact distinct thread inside same
      · cases fresh
    refine ⟨List.nodup_cons.mpr ⟨absent, unique⟩, Function.update share id left, ?_, ?_⟩
    · intro thread member
      rcases List.mem_cons.mp member with rfl | old
      · rw [Function.update_self]
        exact own
      · have different : thread.id ≠ id := fun same => absent (same ▸ List.mem_map_of_mem old)
        rw [Function.update_of_ne different]
        exact holds thread old
    · have taken := @Account.total_eraseIdx _ _ _ _ account _ _ _ chosen
      simp only [List.map_cons, List.sum_cons, Function.update_self, sum_update_absent absent, Account.total_append]
      omega
  | answer id answer =>
    obtain ⟨thread, known, stepped⟩ := Option.bind_eq_some_iff.mp stepped
    obtain ⟨⟨program, world⟩, responded, stepped⟩ := Option.bind_eq_some_iff.mp stepped
    cases stepped
    obtain ⟨unique, share, holds, sum⟩ := within
    have own := Table.mem_of_lookup known
    have mine := Table.key_of_lookup known
    have present : id ∈ pool.waiting.map Thread.id := mine ▸ List.mem_map_of_mem own
    obtain ⟨left, goesOn, spent⟩ := ((holds thread own).answered responded).settled
    rw [mine] at spent
    generalize changed : ({ thread with program := (threads.settle thread.task program world).program } :
      threads.Thread) = settled
    have keeps : settled.id = id := by rw [← changed]; exact mine
    have ids : (Table.modify Thread.id id (fun _ => settled) pool.waiting).map Thread.id = pool.waiting.map Thread.id :=
      Table.keys_modify_own fun _ _ _ => keeps
    refine ⟨by rw [Table.Unique, ids]; exact unique, Function.update share id left, ?_, ?_⟩
    · intro other member
      rcases Table.mem_modify member with ⟨_, _, _, rfl⟩ | ⟨old, different⟩
      · rw [keeps, Function.update_self, ← changed]
        exact goesOn
      · rw [Function.update_of_ne different]
        exact holds other old
    · simp only [ids, sum_update unique present, Account.total_append]
      omega
  | finish id =>
    obtain ⟨thread, known, stepped⟩ := Option.bind_eq_some_iff.mp stepped
    obtain ⟨⟨world, started⟩, ended, stepped⟩ := Option.bind_eq_some_iff.mp stepped
    cases stepped
    refine within.without known ?_
    intro left holds
    have left_ := holds.nonneg
    have closing := balanced.ends thread.task pool.world
    cases code : thread.program with
    | done outcome =>
      rw [code] at ended holds
      cases outcome with
      | none =>
        rw [Option.some.inj ended] at closing
        dsimp only at closing
        omega
      | some next =>
        cases ended
        have cost : account.total [next] = account.ending (some next) := by simp [Account.total, Account.ending]
        have within : account.ending (some next) ≤ left := holds
        omega
    | raise error =>
      rw [code] at ended
      rw [Option.some.inj ended] at closing
      dsimp only at closing
      omega
    | call operation next =>
      rw [code] at ended
      cases ended
  | cancel id =>
    obtain ⟨thread, known, stepped⟩ := Option.bind_eq_some_iff.mp stepped
    cases stepped
    refine within.without known ?_
    intro left holds
    have left_ := holds.nonneg
    have closing := balanced.ends thread.task pool.world
    exact closing.trans (le_add_of_nonneg_right left_)

/-- What is spent after any run from an empty pool was there at its start. -/
theorem run_within {world : World} {pool : threads.Pool} (balanced : Balanced account)
    (run : threads.machine.Run Machine.anyAction { world := world } pool) :
    account.charge pool.world ≤ account.charge world := by
  have within : pool.Within account (account.charge world) := by
    apply run.invariant
    · intro before event after within _ stepped
      exact within.step balanced stepped
    · exact ⟨List.nodup_nil, fun _ => 0, by simp, by simp [Account.total]⟩
  obtain ⟨unique, share, holds, sum⟩ := within
  have ready := @Account.total_nonneg _ _ _ _ account pool.ready
  have shares : 0 ≤ ((pool.waiting.map Thread.id).map share).sum := by
    apply sum_nonneg
    intro id member
    obtain ⟨thread, inside, same⟩ := List.mem_map.mp member
    exact same ▸ (holds thread inside).nonneg
  omega

end Cooperative

end TronForge.Library
