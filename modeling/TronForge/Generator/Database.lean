import TronForge.Library.Table

/-! The tables that the generator's scheduler, the job routes and the result
route share, and the values that travel between scheduler and workers. -/

namespace TronForge.Generator

open Library

abbrev JobId := Nat
abbrev ShardId := Nat
abbrev LeaseToken := Nat
abbrev UserId := Nat
abbrev GpuUuid := String

/-- A UTC instant in microseconds. -/
abbrev Time := Nat

/-- The order of the base point, `SECP256K1_ORDER`. -/
def secp256k1Order : Nat := 0xFFFFFFFFFFFFFFFFFFFFFFFFFFFFFFFEBAAEDCE6AF48A03BBFD25E8CD0364141

inductive PatternType where
  | threeByFour | twoByFive | fourByThree | twoByTwo
  deriving DecidableEq, Repr

def PatternType.value : PatternType → String
  | .threeByFour => "3x4"
  | .twoByFive => "2x5"
  | .fourByThree => "4x3"
  | .twoByTwo => "2x2"

inductive JobStatus where
  | queued | searching | verifying | ready | ownershipVerified | failed | canceled | timedOut
  deriving DecidableEq, Repr

def JobStatus.value : JobStatus → String
  | .queued => "queued"
  | .searching => "searching"
  | .verifying => "verifying"
  | .ready => "ready"
  | .ownershipVerified => "ownership_verified"
  | .failed => "failed"
  | .canceled => "canceled"
  | .timedOut => "timed_out"

/-- `ACTIVE_JOB_STATUSES`. -/
def JobStatus.active : JobStatus → Bool
  | .searching | .verifying => true
  | _ => false

/-- `ACCEPTING_STATUSES`. -/
def JobStatus.accepting : JobStatus → Bool
  | .queued | .searching | .verifying => true
  | _ => false

/-- `TERMINAL_STATUSES` of the routes and `TERMINAL_JOB_STATUSES` of the scheduler. -/
def JobStatus.terminal : JobStatus → Bool
  | .ready | .ownershipVerified | .failed | .canceled | .timedOut => true
  | _ => false

theorem JobStatus.accepting_eq_not_terminal (status : JobStatus) :
    status.accepting = !status.terminal := by
  cases status <;> rfl

inductive GpuStatus where
  | starting | selfTesting | ready | searching | unhealthy | offline
  deriving DecidableEq, Repr

inductive ShardStatus where
  | assigned | running | exhausted | found | canceled | failed
  deriving DecidableEq, Repr

/-- `ACTIVE_SHARD_STATUSES`. -/
def ShardStatus.active : ShardStatus → Bool
  | .assigned | .running => true
  | _ => false

inductive WorkerEventType where
  | starting | selfTesting | ready | started | progress | exhausted | found | canceled | failed
  | stopped
  deriving DecidableEq, Repr

/-- The stored result of `compile_match_spec`: the characters each position allows. -/
structure MatchSpec where
  version : Nat := 1
  prefixOptions : List (List Char)
  suffixOptions : List (List Char)
  deriving DecidableEq, Repr

/-- A row of `generation_jobs`. The two offset columns hold `scalar_hex` of
these numbers; `addressPrefix` is the column `prefix` with its leading T. -/
structure GenerationJob where
  id : JobId
  userId : UserId
  patternType : PatternType
  addressPrefix : String
  suffix : String
  clientPublicKey : String
  encryptedBasePrivateKey : Option String
  matchSpec : MatchSpec
  status : JobStatus := .queued
  priority : Int := 0
  attempts : Nat := 0
  searchRate : Nat := 0
  searchOrigin : Option Nat := none
  nextOffset : Option Nat := none
  failureCode : Option String := none
  failureMessage : Option String := none
  createdAt : Time
  startedAt : Option Time := none
  completedAt : Option Time := none
  deadlineAt : Option Time := none
  deriving DecidableEq, Repr

/-- A row of `generation_results`. -/
structure GenerationResult where
  jobId : JobId
  workerId : String
  address : String
  encryptedOffset : String
  encryptedPrivateKey : String
  verifierVersion : String
  verifiedAt : Time
  deriving DecidableEq, Repr

/-- A row of `gpu_devices`. -/
structure GpuDevice where
  uuid : GpuUuid
  deviceIndex : Nat
  name : String
  memoryTotalMb : Nat
  status : GpuStatus := .offline
  kernelVersion : String
  benchmarkRate : Nat := 0
  utilizationPercent : Nat := 0
  workerPid : Option Nat := none
  currentJobId : Option JobId := none
  lastHeartbeat : Option Time := none
  lastError : Option String := none
  deriving DecidableEq, Repr

/-- A row of `generation_shards`; `rangeStart` is stored as `scalar_hex`. -/
structure GenerationShard where
  id : ShardId
  jobId : JobId
  gpuUuid : GpuUuid
  leaseToken : LeaseToken
  rangeStart : Nat
  rangeCount : Nat
  processed : Nat := 0
  status : ShardStatus := .assigned
  assignedAt : Time
  startedAt : Option Time := none
  completedAt : Option Time := none
  failureMessage : Option String := none
  deriving DecidableEq, Repr

structure Database where
  jobs : List GenerationJob := []
  results : List GenerationResult := []
  devices : List GpuDevice := []
  shards : List GenerationShard := []
  deriving DecidableEq, Repr

structure GpuInfo where
  deviceIndex : Nat
  uuid : GpuUuid
  name : String
  memoryTotalMb : Nat
  benchmarkRate : Nat
  kernelVersion : String := "simulator-v1"
  deriving DecidableEq, Repr

structure WorkAssignment where
  jobId : JobId
  shardId : ShardId
  leaseToken : LeaseToken
  gpuUuid : GpuUuid
  clientPublicKey : String
  pattern : String
  addressPrefix : String
  suffix : String
  rangeStart : Nat
  rangeCount : Nat
  kernelBatchSize : Nat
  simulatedRate : Nat
  deriving DecidableEq, Repr

/-- A worker's report; its counters are any integers. -/
structure WorkerEvent where
  eventType : WorkerEventType
  gpuUuid : GpuUuid
  workerPid : Nat
  jobId : Option JobId := none
  shardId : Option ShardId := none
  leaseToken : Option LeaseToken := none
  processedTotal : Int := 0
  attemptsDelta : Int := 0
  observedRate : Int := 0
  address : Option String := none
  offset : Option String := none
  error : Option String := none
  deriving DecidableEq, Repr

namespace Database

def job? (db : Database) (id : JobId) : Option GenerationJob := Table.lookup (·.id) id db.jobs

def device? (db : Database) (uuid : GpuUuid) : Option GpuDevice :=
  Table.lookup (·.uuid) uuid db.devices

def shard? (db : Database) (id : ShardId) : Option GenerationShard :=
  Table.lookup (·.id) id db.shards

/-- `job.result`. -/
def result? (db : Database) (id : JobId) : Option GenerationResult :=
  Table.lookup (·.jobId) id db.results

def modifyJob (id : JobId) (change : GenerationJob → GenerationJob) (db : Database) : Database :=
  { db with jobs := Table.modify (·.id) id change db.jobs }

def modifyDevice (uuid : GpuUuid) (change : GpuDevice → GpuDevice) (db : Database) : Database :=
  { db with devices := Table.modify (·.uuid) uuid change db.devices }

def modifyShard (id : ShardId) (change : GenerationShard → GenerationShard) (db : Database) :
    Database :=
  { db with shards := Table.modify (·.id) id change db.shards }

end Database

end TronForge.Generator
