import TronForge.Generator.Ranges
import TronForge.Generator.Worker

/-! The tables together with the workers of the leased shards. What a worker meets is
drawn when its shard is leased; how far it got at any time is a front part of that. -/

namespace TronForge.Generator

open Library

/-- What a worker meets while it runs its assignment. -/
inductive Work where
  | cuda (turns : List Turn)
  | simulated (turns : List (List Control))

/-- A worker, the assignment it was dispatched, and how many of its events were recorded. -/
structure FleetWorker where
  process : WorkerProcess
  assignment : WorkAssignment
  work : Work
  delivered : Nat := 0

def FleetWorker.execution (worker : FleetWorker) : Execution :=
  match worker.work with
  | .cuda turns => executeCudaAssignment worker.process worker.assignment turns
  | .simulated turns => executeSimulatedAssignment worker.process worker.assignment turns

structure Fleet where
  db : Database
  workers : List FleetWorker := []

/-- The assignment that the transaction leases. -/
def Operation.leased (operation : Operation) (db : Database) : Option WorkAssignment :=
  match operation with
  | .allocate jobId gpuUuid shardSeconds kernelBatchMs lease =>
    match allocateShard jobId gpuUuid shardSeconds kernelBatchMs lease db with
    | .assigned assignment _ => some assignment
    | _ => none
  | _ => none

/-- A transaction, where a leased shard goes to a worker with this process and this work;
or the record of an event of a worker, its next one or one that was recorded before. -/
inductive FleetAction where
  | store (operation : Operation) (pid : Nat) (work : Work)
  | deliver (shardId : ShardId) (index entropy : Nat) (now : Time)

def Fleet.worker? (fleet : Fleet) (shardId : ShardId) : Option FleetWorker :=
  Table.lookup (·.assignment.shardId) shardId fleet.workers

/-- The event is recorded at least up to this index. -/
def FleetWorker.recorded (index : Nat) (worker : FleetWorker) : FleetWorker :=
  { worker with delivered := max worker.delivered (index + 1) }

def Fleet.perform (verification : Verification) : FleetAction → Fleet → Option Fleet
  | .store operation pid work, fleet => do
    let after ← Generator.perform verification operation fleet.db
    let started := (operation.leased fleet.db).toList.map fun assignment =>
      ⟨⟨assignment.gpuUuid, pid⟩, assignment, work, 0⟩
    return ⟨after, fleet.workers ++ started⟩
  | .deliver shardId index entropy now, fleet => do
    let worker ← fleet.worker? shardId
    if worker.delivered < index then none
    else
      let event ← worker.execution.events[index]?
      let after ← recordEvent verification entropy now event fleet.db
      return ⟨after, Table.modify (·.assignment.shardId) shardId (FleetWorker.recorded index) fleet.workers⟩

def fleetMachine (verification : Verification) : Machine Fleet FleetAction := ⟨Fleet.perform verification⟩

/-- An allocation that leased a shard. -/
theorem allocateShard_assigned {db after : Database} {jobId : JobId} {gpuUuid : GpuUuid}
    {shardSeconds kernelBatchMs : Nat} {lease : Lease} {assignment : WorkAssignment}
    (assigned : allocateShard jobId gpuUuid shardSeconds kernelBatchMs lease db = .assigned assignment after) :
    ∃ job device start, db.job? jobId = some job ∧ job.status = .searching ∧
      Leases job device start shardSeconds lease db after ∧
      assignment = newAssignment job device start (leaseCount device shardSeconds) kernelBatchMs lease := by
  unfold allocateShard at assigned
  split at assigned
  · rename_i job device jobKnown deviceKnown
    split at assigned
    · cases assigned
    · rename_i ready
      rw [not_or, not_not, not_not] at ready
      split at assigned
      · cases assigned
      · rename_i start offset
        simp only at assigned
        split at assigned
        · cases assigned
        · rename_i fits
          split at assigned
          · cases assigned
          · rename_i unleased
            cases assigned
            have key : job.id = jobId := Table.key_of_lookup jobKnown
            subst key
            exact ⟨job, device, start, jobKnown, ready.1,
              ⟨offset, Nat.lt_of_not_le fits, fun leased => unleased (mem_ranges.mp leased), rfl, rfl⟩, rfl⟩
  · cases assigned

/-- An allocation that failed its job moved no offset. -/
theorem allocateShard_exhausted {db after : Database} {jobId : JobId} {gpuUuid : GpuUuid}
    {shardSeconds kernelBatchMs : Nat} {lease : Lease}
    (exhausted : allocateShard jobId gpuUuid shardSeconds kernelBatchMs lease db = .exhausted after) :
    Quiet db after := by
  unfold allocateShard at exhausted
  split at exhausted
  · split at exhausted
    · cases exhausted
    · split at exhausted
      · cases exhausted
      · simp only at exhausted
        split at exhausted
        · cases exhausted
          exact quiet_modifyJob _ fun job => ⟨rfl, rfl, rfl, by simp [exhaust]⟩
        · split at exhausted
          · cases exhausted
          · cases exhausted
  · cases exhausted

end TronForge.Generator
