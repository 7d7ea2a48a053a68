import Mathlib.Algebra.GroupWithZero.Nat
import Mathlib.Data.List.Sort
import TronForge.Generator.Store

/-! `GenerationScheduler` over `LocalGpuSupervisor` and its worker processes.
Workers act at any time; the loop of the scheduler polls their events, restarts
dead workers, handles the events, and then drains, claims and dispatches. The
queue keeps the events of each worker in order; the events of a dead worker stay
in it, beside those of its successor. -/

namespace TronForge.Generator

open Library

inductive WorkerCommand where
  | assign (assignment : WorkAssignment)
  | cancelJob (jobId : JobId)
  deriving DecidableEq, Repr

/-- Where a worker process stands in `cuda_worker_main` or
`simulator_worker_main`: before its first event, after `STARTING`, after
`SELF_TESTING`, waiting for a command, with an assignment taken but not started,
running it, after its last event for it, after a failure outside of any
assignment, and no longer alive. -/
inductive WorkerState where
  | launched
  | starting
  | selfTesting
  | waiting
  | accepted (assignment : WorkAssignment)
  | running (assignment : WorkAssignment)
  | reported
  | stopping
  | exited
  deriving DecidableEq, Repr

/-- A GPU in the three views of it: its membership in `idle_gpus`, its
`WorkerHandle`, and the worker process with the events it has written that are
not polled yet. `late` holds those of its dead predecessors. -/
structure Gpu where
  info : GpuInfo
  idle : Bool := false
  assignment : Option WorkAssignment := none
  commands : List WorkerCommand := []
  worker : WorkerState := .launched
  pid : Nat
  pending : List WorkerEvent := []
  late : List (List WorkerEvent) := []
  deriving DecidableEq, Repr

namespace Gpu

def uuid (gpu : Gpu) : GpuUuid := gpu.info.uuid

/-- `emit`: an event without an assignment. -/
def emit (type : WorkerEventType) (gpu : Gpu) : Gpu :=
  { gpu with pending := gpu.pending ++ [{ eventType := type, gpuUuid := gpu.uuid, workerPid := gpu.pid }] }

/-- The events a worker emits on its way to its next command or to its end. -/
def announce (gpu : Gpu) : Option Gpu :=
  match gpu.worker with
  | .launched => some { gpu.emit .starting with worker := .starting }
  | .starting => some { gpu.emit .selfTesting with worker := .selfTesting }
  | .selfTesting | .reported => some { gpu.emit .ready with worker := .waiting }
  | .stopping => some { gpu.emit .stopped with worker := .exited }
  | .waiting | .accepted _ | .running _ | .exited => none

/-- An event about the worker's assignment, with any counters and any winner. -/
def About (gpu : Gpu) (assignment : WorkAssignment) (event : WorkerEvent) : Prop :=
  event.gpuUuid = gpu.uuid ∧ event.workerPid = gpu.pid ∧ event.jobId = some assignment.jobId ∧
    event.shardId = some assignment.shardId ∧ event.leaseToken = some assignment.leaseToken

instance (gpu : Gpu) (assignment : WorkAssignment) (event : WorkerEvent) :
    Decidable (gpu.About assignment event) :=
  inferInstanceAs (Decidable (_ ∧ _ ∧ _ ∧ _ ∧ _))

/-- The last event of an assignment; `poll_events` clears the handle on it. -/
def closing : WorkerEventType → Bool
  | .exhausted | .found | .canceled | .failed => true
  | _ => false

/-- The worker after the next event of `execute_*_assignment`. -/
def afterReport (assignment : WorkAssignment) (type : WorkerEventType) : WorkerState → Option WorkerState
  | .accepted _ =>
    if type = .started then some (.running assignment)
    else if type = .failed then some .reported
    else none
  | .running _ =>
    if type = .progress then some (.running assignment)
    else if closing type then some .reported
    else none
  | _ => none

/-- The assignment a worker process is working on. -/
def working? : WorkerState → Option WorkAssignment
  | .accepted assignment | .running assignment => some assignment
  | _ => none

def report (event : WorkerEvent) (gpu : Gpu) : Option Gpu :=
  match working? gpu.worker with
  | none => none
  | some assignment =>
    if gpu.About assignment event then
      (afterReport assignment event.eventType gpu.worker).map fun worker =>
        { gpu with worker, pending := gpu.pending ++ [event] }
    else none

/-- The text of the error for a second assignment during the first. -/
def overlapping (gpu : Gpu) (assignment : WorkAssignment) : WorkerEvent where
  eventType := .failed
  gpuUuid := gpu.uuid
  workerPid := gpu.pid
  jobId := some assignment.jobId
  shardId := some assignment.shardId
  leaseToken := some assignment.leaseToken
  error := some "Worker received overlapping assignments."

/-- The worker reads its next command: when it waits, or while it runs an
assignment and drains the control commands. -/
def take (gpu : Gpu) : Option Gpu :=
  match gpu.worker, gpu.commands with
  | .waiting, .assign assignment :: rest =>
    some { gpu with worker := .accepted assignment, commands := rest }
  | .waiting, .cancelJob _ :: rest => some { gpu with commands := rest }
  | .running _, .cancelJob _ :: rest => some { gpu with commands := rest }
  | .running assignment, .assign _ :: rest =>
    some { gpu with
      worker := .reported, commands := rest, pending := gpu.pending ++ [gpu.overlapping assignment] }
  | _, _ => none

/-- An exception outside of any assignment: `FAILED` is emitted and `STOPPED` is
to come. -/
def fail (error : String) (gpu : Gpu) : Option Gpu :=
  match gpu.worker with
  | .launched | .stopping | .exited => none
  | _ => some { gpu with
      worker := .stopping
      pending := gpu.pending ++ [{
        eventType := .failed, gpuUuid := gpu.uuid, workerPid := gpu.pid, error := some error }] }

/-- The process dies at any moment; events not flushed yet may be lost. -/
def die (flushed : Nat) (gpu : Gpu) : Gpu :=
  { gpu with worker := .exited, pending := gpu.pending.take flushed }

/-- `poll_events` on one event: the handle loses its assignment on a closing one. -/
def polled (event : WorkerEvent) (gpu : Gpu) : Gpu :=
  { gpu with assignment := if closing event.eventType then none else gpu.assignment }

/-- The next event of the present worker, or of the `stream`-th dead one. -/
def next? (stream : Option Nat) (gpu : Gpu) : Option (WorkerEvent × Gpu) :=
  match stream with
  | none =>
    match gpu.pending with
    | [] => none
    | event :: rest => some (event, { gpu with pending := rest })
  | some index =>
    match gpu.late[index]? with
    | some (event :: rest) => some (event, { gpu with late := gpu.late.set index rest })
    | _ => none

/-- The event `restart_dead_workers` makes up for an interrupted assignment. -/
def interrupted (gpu : Gpu) (assignment : WorkAssignment) : WorkerEvent where
  eventType := .failed
  gpuUuid := gpu.uuid
  workerPid := gpu.pid
  jobId := some assignment.jobId
  shardId := some assignment.shardId
  leaseToken := some assignment.leaseToken
  error := some "GPU worker exited before completing its assignment."

def dead (gpu : Gpu) : Bool := decide (gpu.worker = .exited)

/-- `_spawn` under the same GPU: a new handle, queue and process. -/
def respawn (pid : Nat) (gpu : Gpu) : Gpu :=
  { gpu with
    assignment := none
    commands := []
    worker := .launched
    pid := pid
    pending := []
    late := gpu.late ++ [gpu.pending] }

/-- `_handle_event` on the membership in `idle_gpus`. -/
def idleAfter (type : WorkerEventType) (idle : Bool) : Bool :=
  match type with
  | .ready => true
  | .started | .progress | .failed | .stopped => false
  | _ => idle

def handled (type : WorkerEventType) (gpu : Gpu) : Gpu :=
  { gpu with idle := idleAfter type gpu.idle }

/-- `cancel_job` on one handle. -/
def cancel (jobId : JobId) (gpu : Gpu) : Gpu :=
  match gpu.assignment with
  | some assignment =>
    if assignment.jobId = jobId then { gpu with commands := gpu.commands ++ [.cancelJob jobId] } else gpu
  | none => gpu

/-- A dispatched assignment, and the GPU leaves `idle_gpus`. -/
def dispatched (assignment : WorkAssignment) (gpu : Gpu) : Gpu :=
  { gpu with
    assignment := some assignment, commands := gpu.commands ++ [.assign assignment], idle := false }

end Gpu

/-- What ends the loop of the scheduler with an exception. -/
inductive SchedulerError where
  | unknownGpu (gpuUuid : GpuUuid)
  | alreadyAssigned (gpuUuid : GpuUuid)
  | notAlive (gpuUuid : GpuUuid)
  | database
  deriving DecidableEq, Repr

/-- The place of the scheduler in one turn of its loop. -/
inductive Stage where
  | polling
  | handling
  | draining
  | claiming
  | filling (remaining : List GpuUuid)
  | raised (error : SchedulerError)
  deriving DecidableEq, Repr

structure Settings where
  jobTimeoutSeconds : Nat
  shardSeconds : Nat
  kernelBatchMs : Nat

structure Scheduler where
  db : Database
  gpus : List Gpu
  activeJobId : Option JobId := none
  drainingJobId : Option JobId := none
  batch : List WorkerEvent := []
  stage : Stage := .polling
  deriving DecidableEq, Repr

/-- What one step of the loop draws from outside: the clock, random values, row
locks held by others, and the process ids of new workers. -/
structure Tick where
  now : Time
  entropy : Nat := 0
  draw : Fin (secp256k1Order - 1) := ⟨0, by decide⟩
  locked : JobId → Bool := fun _ => false
  shardId : ShardId := 0
  leaseToken : LeaseToken := 0
  pid : GpuUuid → Nat := fun _ => 1

namespace Scheduler

def gpu? (scheduler : Scheduler) (uuid : GpuUuid) : Option Gpu :=
  Table.lookup Gpu.uuid uuid scheduler.gpus

def modifyGpu (uuid : GpuUuid) (change : Gpu → Gpu) (scheduler : Scheduler) : Scheduler :=
  { scheduler with gpus := Table.modify Gpu.uuid uuid change scheduler.gpus }

/-- One step of one worker process. -/
def onGpu (uuid : GpuUuid) (act : Gpu → Option Gpu) (scheduler : Scheduler) : Option Scheduler := do
  let gpu ← scheduler.gpu? uuid
  let next ← act gpu
  return scheduler.modifyGpu uuid fun _ => next

/-- `poll_events` takes one more event out of the queue. -/
def deliver (uuid : GpuUuid) (stream : Option Nat) (scheduler : Scheduler) : Option Scheduler :=
  if scheduler.stage = .polling then do
    let gpu ← scheduler.gpu? uuid
    let (event, rest) ← gpu.next? stream
    return { scheduler.modifyGpu uuid (fun _ => rest.polled event) with
      batch := scheduler.batch ++ [event] }
  else none

/-- The events `restart_dead_workers` returns. -/
def synthetic (gpus : List Gpu) : List WorkerEvent :=
  gpus.filterMap fun gpu => if gpu.dead then gpu.assignment.map gpu.interrupted else none

/-- `restart_dead_workers`, after the queue was found empty. -/
def restartDeadWorkers (tick : Tick) (scheduler : Scheduler) : Scheduler :=
  { scheduler with
    gpus := scheduler.gpus.map fun gpu => if gpu.dead then gpu.respawn (tick.pid gpu.uuid) else gpu
    batch := scheduler.batch ++ synthetic scheduler.gpus
    stage := .handling }

/-- `_handle_event`. -/
def handleEvent (verification : Verification) (tick : Tick) (event : WorkerEvent)
    (rest : List WorkerEvent) (scheduler : Scheduler) : Scheduler :=
  match recordEvent verification tick.entropy tick.now event scheduler.db with
  | none => { scheduler with stage := .raised .database }
  | some db =>
    { scheduler.modifyGpu event.gpuUuid (Gpu.handled event.eventType) with db, batch := rest }

/-- `_check_active_job`. -/
def checkActiveJob (tick : Tick) (scheduler : Scheduler) : Scheduler :=
  match scheduler.activeJobId with
  | none => { scheduler with stage := .draining }
  | some jobId =>
    match activeJobStatus tick.now jobId scheduler.db with
    | (status, db) =>
      if (status.map JobStatus.terminal).getD true then
        { scheduler with
          db
          gpus := scheduler.gpus.map (Gpu.cancel jobId)
          drainingJobId := some jobId
          activeJobId := none
          stage := .draining }
      else { scheduler with db, stage := .draining }

/-- `self.idle_gpus == self.supervisor.gpu_uuids`. -/
def allIdle (scheduler : Scheduler) : Bool := scheduler.gpus.all (·.idle)

/-- `_finish_draining`. -/
def finishDraining (scheduler : Scheduler) : Scheduler :=
  { scheduler with
    drainingJobId := if scheduler.allIdle then none else scheduler.drainingJobId
    stage := .claiming }

/-- Whether `_claim_if_ready` gets to `claim_next_job`. -/
def claims (scheduler : Scheduler) : Bool :=
  scheduler.activeJobId.isNone && scheduler.drainingJobId.isNone && scheduler.allIdle

/-- The idle GPUs in the order of `_fill_idle_gpus`. -/
def sortedIdle (scheduler : Scheduler) : List GpuUuid :=
  ((scheduler.gpus.filter (·.idle)).map Gpu.uuid).insertionSort (· ≤ ·)

/-- `_fill_idle_gpus` up to its loop. -/
def startFilling (scheduler : Scheduler) : Scheduler :=
  { scheduler with stage :=
      if scheduler.activeJobId.isNone || scheduler.drainingJobId.isSome then .polling
      else .filling scheduler.sortedIdle }

/-- `_claim_if_ready`. -/
def claimIfReady (settings : Settings) (tick : Tick) (scheduler : Scheduler) : Scheduler :=
  if scheduler.claims then
    match claimNextJob (scheduler.gpus.map (·.info.benchmarkRate)).sum settings.jobTimeoutSeconds
        tick.now tick.draw tick.locked scheduler.db with
    | (claimed, db) => startFilling { scheduler with db, activeJobId := claimed }
  else startFilling scheduler

/-- `dispatch`. -/
def dispatch (uuid : GpuUuid) (assignment : WorkAssignment) (rest : List GpuUuid)
    (scheduler : Scheduler) : Scheduler :=
  match scheduler.gpu? uuid with
  | none => { scheduler with stage := .raised (.unknownGpu uuid) }
  | some gpu =>
    if gpu.assignment ≠ none then { scheduler with stage := .raised (.alreadyAssigned uuid) }
    else if gpu.dead then { scheduler with stage := .raised (.notAlive uuid) }
    else { scheduler.modifyGpu uuid (Gpu.dispatched assignment) with stage := .filling rest }

/-- One turn of the loop in `_fill_idle_gpus`. -/
def fillIdleGpu (settings : Settings) (tick : Tick) (uuid : GpuUuid) (rest : List GpuUuid)
    (scheduler : Scheduler) : Option Scheduler :=
  if ∀ shard ∈ scheduler.db.shards, shard.id ≠ tick.shardId then
    match scheduler.activeJobId with
    | none => none
    | some jobId =>
      match allocateShard jobId uuid settings.shardSeconds settings.kernelBatchMs
          ⟨tick.shardId, tick.leaseToken, tick.now⟩ scheduler.db with
      | .refused => some { scheduler with stage := .filling rest }
      | .exhausted db => some { scheduler with db, stage := .filling rest }
      | .assigned assignment db => some (dispatch uuid assignment rest { scheduler with db })
      | .duplicateRangeStart => some { scheduler with stage := .raised .database }
  else none

/-- The next step of the scheduler's loop. -/
def loop (verification : Verification) (settings : Settings) (tick : Tick) (scheduler : Scheduler) :
    Option Scheduler :=
  match scheduler.stage with
  | .polling => some (scheduler.restartDeadWorkers tick)
  | .handling =>
    match scheduler.batch with
    | event :: rest => some (scheduler.handleEvent verification tick event rest)
    | [] => some (scheduler.checkActiveJob tick)
  | .draining => some scheduler.finishDraining
  | .claiming => some (scheduler.claimIfReady settings tick)
  | .filling [] => some { scheduler with stage := .polling }
  | .filling (uuid :: rest) => scheduler.fillIdleGpu settings tick uuid rest
  | .raised _ => none

end Scheduler

inductive SchedulerAction where
  | announce (uuid : GpuUuid)
  | take (uuid : GpuUuid)
  | report (uuid : GpuUuid) (event : WorkerEvent)
  | fail (uuid : GpuUuid) (error : String)
  | die (uuid : GpuUuid) (flushed : Nat)
  | deliver (uuid : GpuUuid) (stream : Option Nat)
  | loop (tick : Tick)
  | request (operation : Operation)

/-- The transactions of the API process. -/
def Operation.requested : Operation → Bool
  | .create _ | .cancel .. | .submit .. => true
  | _ => false

def schedulerStep (verification : Verification) (settings : Settings) :
    SchedulerAction → Scheduler → Option Scheduler
  | .announce uuid, scheduler => scheduler.onGpu uuid Gpu.announce
  | .take uuid, scheduler => scheduler.onGpu uuid Gpu.take
  | .report uuid event, scheduler => scheduler.onGpu uuid (Gpu.report event)
  | .fail uuid error, scheduler => scheduler.onGpu uuid (Gpu.fail error)
  | .die uuid flushed, scheduler => scheduler.onGpu uuid fun gpu => some (gpu.die flushed)
  | .deliver uuid stream, scheduler => scheduler.deliver uuid stream
  | .loop tick, scheduler => scheduler.loop verification settings tick
  | .request operation, scheduler =>
    if operation.requested then
      (perform verification operation scheduler.db).map fun db => { scheduler with db }
    else none

def scheduling (verification : Verification) (settings : Settings) :
    Machine Scheduler SchedulerAction := ⟨schedulerStep verification settings⟩

/-- `run` up to its loop, for GPUs with distinct identifiers. -/
def launched (devices : List GpuInfo) (pid : GpuUuid → Nat) (now : Time) (db : Database) : Scheduler where
  db := initializeDevices devices (recoverInterruptedWork now db)
  gpus := devices.map fun info => { info, pid := pid info.uuid }

end TronForge.Generator
