import TronForge.Generator.Results

/-! `SchedulerRepository`: each method is one transaction on the tables. A
method that may raise yields no table then, since nothing was committed. -/

namespace TronForge.Generator

open Library

/-- `mark_devices_offline`, also the first statement of `initialize`. -/
def markDevicesOffline (db : Database) : Database :=
  { db with devices := db.devices.map fun device => { device with
      status := .offline
      utilizationPercent := 0
      currentJobId := none
      workerPid := none } }

/-- The row `initialize` leaves for a discovered device. -/
def starting (info : GpuInfo) (device : GpuDevice) : GpuDevice :=
  { device with
    deviceIndex := info.deviceIndex
    name := info.name
    memoryTotalMb := info.memoryTotalMb
    benchmarkRate := info.benchmarkRate
    kernelVersion := info.kernelVersion
    status := .starting
    lastError := none }

/-- The row `initialize` adds for a device it does not find. -/
def discovered (info : GpuInfo) : GpuDevice where
  uuid := info.uuid
  deviceIndex := info.deviceIndex
  name := info.name
  memoryTotalMb := info.memoryTotalMb
  kernelVersion := info.kernelVersion

def register (db : Database) (info : GpuInfo) : Database :=
  match db.device? info.uuid with
  | some _ => db.modifyDevice info.uuid (starting info)
  | none => { db with devices := starting info (discovered info) :: db.devices }

/-- `initialize`. -/
def initializeDevices (devices : List GpuInfo) (db : Database) : Database :=
  devices.foldl register (markDevicesOffline db)

/-- `recover_interrupted_work` on one shard. -/
def interruptShard (now : Time) (shard : GenerationShard) : GenerationShard :=
  if shard.status.active then
    { shard with
      status := .failed
      completedAt := some now
      failureMessage := some "Scheduler restarted while this shard was active." }
  else shard

/-- `recover_interrupted_work` on one job. -/
def requeue (job : GenerationJob) : GenerationJob :=
  if job.status.active then
    { job with
      status := .queued
      nextOffset := job.searchOrigin
      startedAt := none
      deadlineAt := none
      searchRate := 0 }
  else job

def recoverInterruptedWork (now : Time) (db : Database) : Database :=
  { db with shards := db.shards.map (interruptShard now), jobs := db.jobs.map requeue }

/-- `ORDER BY priority DESC, created_at`. -/
def queuedBefore (left right : GenerationJob) : Bool :=
  decide (right.priority < left.priority ∨
    left.priority = right.priority ∧ left.createdAt < right.createdAt)

/-- The rows the queue query sees; rows locked by others are skipped. -/
def waiting (locked : JobId → Bool) (job : GenerationJob) : Bool :=
  decide (job.status = .queued) && !locked job.id

def nextQueued (locked : JobId → Bool) (jobs : List GenerationJob) : Option GenerationJob :=
  jobs.find? fun job => waiting locked job &&
    jobs.all fun other => !(waiting locked other && queuedBefore other job)

/-- What `claim_next_job` writes; `draw + 1` is the random origin. -/
def startSearch (combinedRate timeoutSeconds : Nat) (now : Time) (draw : Fin (secp256k1Order - 1))
    (job : GenerationJob) : GenerationJob :=
  let origin := job.searchOrigin.getD (draw + 1)
  { job with
    searchOrigin := some origin
    nextOffset := some origin
    status := .searching
    startedAt := some now
    deadlineAt := some (now + timeoutSeconds * 1000000)
    completedAt := none
    searchRate := combinedRate }

def claimNextJob (combinedRate timeoutSeconds : Nat) (now : Time)
    (draw : Fin (secp256k1Order - 1)) (locked : JobId → Bool) (db : Database) :
    Option JobId × Database :=
  match db.jobs.find? (·.status.active) with
  | some existing => (some existing.id, db)
  | none =>
    match nextQueued locked db.jobs with
    | none => (none, db)
    | some job =>
      (some job.id, db.modifyJob job.id (startSearch combinedRate timeoutSeconds now draw))

/-- The outcomes of `allocate_shard`: it returns `None` without writing, fails
the exhausted job, stores a shard, or its flush violates
`uq_shard_job_range_start`. -/
inductive Allocation where
  | refused
  | exhausted (db : Database)
  | assigned (assignment : WorkAssignment) (db : Database)
  | duplicateRangeStart
  deriving DecidableEq

/-- The number of candidates `allocate_shard` leases to a device. -/
def leaseCount (device : GpuDevice) (shardSeconds : Nat) : Nat :=
  max 1 (max 1 device.benchmarkRate * shardSeconds)

/-- The shard, its lease token and its time are new in every call. -/
structure Lease where
  shardId : ShardId
  leaseToken : LeaseToken
  now : Time

def newShard (job : GenerationJob) (device : GpuDevice) (rangeStart rangeCount : Nat)
    (lease : Lease) : GenerationShard where
  id := lease.shardId
  jobId := job.id
  gpuUuid := device.uuid
  leaseToken := lease.leaseToken
  rangeStart := rangeStart
  rangeCount := rangeCount
  assignedAt := lease.now

def newAssignment (job : GenerationJob) (device : GpuDevice) (rangeStart rangeCount : Nat)
    (kernelBatchMs : Nat) (lease : Lease) : WorkAssignment where
  jobId := job.id
  shardId := lease.shardId
  leaseToken := lease.leaseToken
  gpuUuid := device.uuid
  clientPublicKey := job.clientPublicKey
  pattern := job.patternType.value
  addressPrefix := job.addressPrefix
  suffix := job.suffix
  rangeStart := rangeStart
  rangeCount := rangeCount
  kernelBatchSize := max 1 (max 1 device.benchmarkRate * kernelBatchMs / 1000)
  simulatedRate := max 1 device.benchmarkRate

/-- What the exhausted branch writes to the job. -/
def exhaust (now : Time) (job : GenerationJob) : GenerationJob :=
  { job with
    status := .failed
    failureCode := some "search_space_exhausted"
    failureMessage := some "The allocated secp256k1 search range was exhausted."
    completedAt := some now }

/-- What a stored shard changes in the job and in the device. -/
def advance (nextOffset : Nat) (job : GenerationJob) : GenerationJob :=
  { job with nextOffset := some nextOffset }

def occupy (jobId : JobId) (now : Time) (device : GpuDevice) : GpuDevice :=
  { device with
    status := .searching
    utilizationPercent := 100
    currentJobId := some jobId
    lastHeartbeat := some now }

def allocateShard (jobId : JobId) (gpuUuid : GpuUuid) (shardSeconds kernelBatchMs : Nat)
    (lease : Lease) (db : Database) : Allocation :=
  match db.job? jobId, db.device? gpuUuid with
  | some job, some device =>
    if job.status ≠ .searching ∨ device.status ≠ .ready then .refused
    else
      match job.nextOffset with
      | none => .refused
      | some rangeStart =>
        let rangeCount := leaseCount device shardSeconds
        if secp256k1Order ≤ rangeStart + rangeCount then
          .exhausted (db.modifyJob jobId (exhaust lease.now))
        else if db.shards.any fun shard => shard.jobId = jobId && shard.rangeStart = rangeStart then
          .duplicateRangeStart
        else
          .assigned (newAssignment job device rangeStart rangeCount kernelBatchMs lease)
            ({ db with shards := newShard job device rangeStart rangeCount lease :: db.shards }
              |>.modifyJob jobId (advance (rangeStart + rangeCount))
              |>.modifyDevice gpuUuid (occupy jobId lease.now))
  | _, _ => .refused

/-- The benchmark rate after an event's observed rate, smoothed after the first. -/
def smoothedRate (currentRate : Nat) (observedRate : Int) : Nat :=
  if 0 < observedRate then
    if currentRate = 0 then observedRate.toNat
    else max 1 ((currentRate * 3 + observedRate.toNat) / 4)
  else currentRate

/-- What `record_event` writes to the device for every event type. -/
def deviceAfter (now : Time) (event : WorkerEvent) (device : GpuDevice) : GpuDevice :=
  let seen := { device with
    workerPid := if event.workerPid = 0 then none else some event.workerPid
    lastHeartbeat := some now
    benchmarkRate := smoothedRate device.benchmarkRate event.observedRate }
  match event.eventType with
  | .starting => { seen with status := .starting }
  | .selfTesting => { seen with status := .selfTesting }
  | .ready =>
    { seen with status := .ready, utilizationPercent := 0, currentJobId := none, lastError := none }
  | .stopped => { seen with status := .offline, utilizationPercent := 0, currentJobId := none }
  | .failed =>
    { seen with
      status := .unhealthy, utilizationPercent := 0, currentJobId := none, lastError := event.error }
  | _ => seen

/-- `_matching_shard`: the shard the event names, under its present lease. -/
def Database.matchingShard (db : Database) (event : WorkerEvent) : Option GenerationShard :=
  match event.shardId, event.leaseToken with
  | some shardId, some leaseToken =>
    (db.shard? shardId).filter fun shard => shard.leaseToken = leaseToken
  | _, _ => none

/-- `max(previous, event.processed_total)`. -/
def processedAfter (event : WorkerEvent) (shard : GenerationShard) : Nat :=
  max shard.processed event.processedTotal.toNat

def countAttempts (more : Nat) (job : GenerationJob) : GenerationJob :=
  { job with attempts := job.attempts + more }

/-- A failed verification, or a winner event without its address or offset. -/
def failCandidate (message : String) (now : Time) (job : GenerationJob) : GenerationJob :=
  { job with
    status := .failed
    failureCode := some "candidate_verification_failed"
    failureMessage := some message
    completedAt := some now }

def distrust (message : String) (device : GpuDevice) : GpuDevice :=
  { device with status := .unhealthy, lastError := some message }

/-- The rows a rejected winner event changes. -/
def rejectWinner (event : WorkerEvent) (shard : GenerationShard) (message : String) (now : Time)
    (db : Database) : Database :=
  db.modifyShard shard.id (fun shard =>
      { shard with status := .failed, failureMessage := some message })
    |>.modifyDevice event.gpuUuid (distrust message)
    |>.modifyJob shard.jobId (failCandidate message now)

/-- The rows a winner event changes before its candidate is finalized. -/
def countFound (now : Time) (event : WorkerEvent) (shard : GenerationShard) (db : Database) :
    Database :=
  db.modifyShard shard.id (fun shard =>
      { shard with
        status := .found, processed := processedAfter event shard, completedAt := some now })
    |>.modifyJob shard.jobId (countAttempts (processedAfter event shard - shard.processed))

/-- The candidate of a counted winner event. -/
def recordWinner (verification : Verification) (entropy : Nat) (now : Time) (event : WorkerEvent)
    (shard : GenerationShard) (address offset : String) (counted : Database) : Option Database :=
  match finalizeCandidate verification entropy now counted shard.jobId
      (event.gpuUuid ++ ":" ++ toString event.workerPid) address offset with
  | .raises => none
  | .stateConflict _ => some (counted.modifyShard shard.id fun shard =>
      { shard with status := .canceled })
  | .jobNotFound => some (rejectWinner event shard "Generation job not found." now counted)
  | .verificationError message => some (rejectWinner event shard message now counted)
  | .repeated _ => some counted
  | .accepted result => if counted.admits result then some (counted.accept result now) else none

/-- The `FOUND` branch of `record_event`. -/
def recordFound (verification : Verification) (entropy : Nat) (now : Time) (event : WorkerEvent)
    (shard : GenerationShard) (db : Database) : Option Database :=
  match event.address, event.offset with
  | some address, some offset =>
    recordWinner verification entropy now event shard address offset (countFound now event shard db)
  | _, _ => some (rejectWinner event shard "CUDA winner event is missing its address or offset." now
      (countFound now event shard db))

/-- What `record_event` does with the shard that the event names. -/
def recordShard (verification : Verification) (entropy : Nat) (now : Time) (event : WorkerEvent)
    (shard : GenerationShard) (db : Database) : Option Database :=
  match event.eventType with
  | .started => some (db.modifyShard shard.id fun shard =>
      { shard with status := .running, startedAt := some now })
  | .progress => some (db.modifyShard shard.id (fun shard =>
        { shard with processed := processedAfter event shard })
      |>.modifyJob shard.jobId (countAttempts (processedAfter event shard - shard.processed)))
  | .exhausted => some (db.modifyShard shard.id fun shard =>
      { shard with
        status := .exhausted, processed := processedAfter event shard, completedAt := some now })
  | .found => recordFound verification entropy now event shard db
  | .canceled => some (db.modifyShard shard.id fun shard =>
      { shard with
        status := .canceled, processed := processedAfter event shard, completedAt := some now })
  | .failed => some (db.modifyShard shard.id fun shard =>
      { shard with status := .failed, completedAt := some now, failureMessage := event.error })
  | _ => some db

def recordEvent (verification : Verification) (entropy : Nat) (now : Time) (event : WorkerEvent)
    (db : Database) : Option Database :=
  match db.device? event.gpuUuid with
  | none => some db
  | some _ =>
    let noted := db.modifyDevice event.gpuUuid (deviceAfter now event)
    match noted.matchingShard event with
    | none => some noted
    | some shard => recordShard verification entropy now event shard noted

/-- A search past its deadline. -/
def overdue (now : Time) (job : GenerationJob) : Bool :=
  decide (job.status = .searching) &&
    match job.deadlineAt with
    | some deadline => decide (deadline ≤ now)
    | none => false

/-- `active_job_status`; an overdue search is timed out on the way. -/
def activeJobStatus (now : Time) (jobId : JobId) (db : Database) : Option JobStatus × Database :=
  match db.job? jobId with
  | none => (none, db)
  | some job =>
    if overdue now job then
      (some .timedOut, db.modifyJob jobId fun job =>
        { job with status := .timedOut, completedAt := some now })
    else (some job.status, db)

end TronForge.Generator
